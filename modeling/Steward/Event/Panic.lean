/-!
# Event/Panic — what a panic leaves behind

Handlers and observers may panic.  What is known afterwards is the payload of the panic; only a
text can be told to others.
-/

namespace Steward

/-- What a panic carries. -/
inductive PanicPayload where
  | text (message : String)
  /-- Something that is no text. -/
  | value
  deriving DecidableEq

/-- The message of a panic, as far as there is one. -/
def PanicPayload.message : PanicPayload → String
  | text message => message
  | value => "unknown panic"

end Steward
