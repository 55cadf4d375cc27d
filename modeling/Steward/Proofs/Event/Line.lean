import Steward.Event.Line

/-!
# Proofs/Event/Line — which events stay on one line of a log

A line is made of words of the log's own, of labels, numbers and quoted texts, none of which can break
it: to quote a text writes every line break and every carriage return as two characters.  Only the
events about observers print a text as it is: the name of the observer, and what it left in its panic.

* `unbroken_quote` — a quoted text breaks no line, whatever it holds.
* `unbroken_line_iff` — the line of an event breaks exactly if one of its bare texts does.
* `isOneLine_logText_iff` — so all events are one line of the log, but for those about observers.
* `panic_breaks_line` — a panic whose message has two lines makes two lines of a log.
-/

namespace Steward

/-- The text goes to no new line, nor back to the beginning of its own. -/
def Unbroken (s : String) : Prop := '\n' ∉ s.toList ∧ '\r' ∉ s.toList

instance (s : String) : Decidable (Unbroken s) := inferInstanceAs (Decidable (_ ∧ _))

/-- The text is one line: something on it, a line break at its end, and no other break. -/
def IsOneLine (s : String) : Prop := ∃ t, t ≠ "" ∧ Unbroken t ∧ s = t ++ "\n"

@[simp] theorem unbroken_append {s t : String} : Unbroken (s ++ t) ↔ Unbroken s ∧ Unbroken t := by
  simp only [Unbroken, String.toList_append, List.mem_append, not_or]
  exact and_and_and_comm

/-! ## Numbers -/

/-- What stands for a number are digits. -/
theorem exists_digit_of_mem_toDigits {b : Nat} (hb : 1 < b) {c : Char} (n : Nat)
    (hc : c ∈ Nat.toDigits b n) : ∃ k, c = Nat.digitChar k := by
  induction n using Nat.strongRecOn with
  | ind n ih =>
    rw [Nat.toDigits_eq_if hb] at hc
    split at hc
    · exact ⟨n, List.mem_singleton.mp hc⟩
    · rename_i hlarge
      obtain hc | hc := List.mem_append.mp hc
      · exact ih (n / b) (Nat.div_lt_self (by omega) hb) hc
      · exact ⟨n % b, List.mem_singleton.mp hc⟩

/-- No digit breaks a line. -/
theorem notMem_toDigits {b : Nat} (hb : 1 < b) (n : Nat) :
    '\n' ∉ Nat.toDigits b n ∧ '\r' ∉ Nat.toDigits b n := by
  refine ⟨fun hc => ?_, fun hc => ?_⟩
  · obtain ⟨k, hk⟩ := exists_digit_of_mem_toDigits hb n hc
    exact Nat.digitChar_ne '\n' (by decide) hk.symm
  · obtain ⟨k, hk⟩ := exists_digit_of_mem_toDigits hb n hc
    exact Nat.digitChar_ne '\r' (by decide) hk.symm

@[simp] theorem unbroken_toString (n : UInt32) : Unbroken (toString n) := by
  change Unbroken (String.ofList (Nat.toDigits 10 n.toNat))
  rw [Unbroken, String.toList_ofList]
  exact notMem_toDigits (by decide) _

/-! ## Quoted texts -/

namespace Quoted

/-- **No character is written with a break.** -/
theorem notMem_escape (c : Char) : '\n' ∉ escape c ∧ '\r' ∉ escape c := by
  unfold escape
  split
  case h_7 hreturn hnewline _ =>
    split
    · have hdigits := notMem_toDigits (b := 16) (by decide) c.toNat
      simp [numbered, hdigits]
    · exact ⟨fun h => hnewline (List.mem_singleton.mp h).symm,
        fun h => hreturn (List.mem_singleton.mp h).symm⟩
  all_goals decide

/-- **A quoted text breaks no line**, whatever it holds. -/
@[simp] theorem unbroken_quote (s : String) : Unbroken (quote s) := by
  have hbetween : ∀ b : Char, b ≠ '"' → (∀ c, b ∉ escape c) → b ∉ quoteChars s.toList := by
    intro b hquote hescape hb
    obtain hb | hb := List.mem_append.mp hb
    · obtain hb | hb := List.mem_cons.mp hb
      · exact hquote hb
      · obtain ⟨c, -, hc⟩ := List.mem_flatMap.mp hb
        exact hescape c hc
    · exact hquote (List.mem_singleton.mp hb)
  rw [Unbroken, quote, String.toList_ofList]
  exact ⟨hbetween '\n' (by decide) fun c => (notMem_escape c).1,
    hbetween '\r' (by decide) fun c => (notMem_escape c).2⟩

end Quoted

/-! ## Labels -/

theorem Command.unbroken_label (c : Command) : Unbroken c.label := by
  unfold label
  split <;> decide

theorem ServiceState.unbroken_label (s : ServiceState) : Unbroken s.label := by
  cases s <;> decide

namespace Event

@[simp] theorem unbroken_commandText (e : Event) : Unbroken e.commandText := by
  rw [commandText]
  cases e.command with
  | none => decide
  | some c => exact c.unbroken_label

@[simp] theorem unbroken_stateText (e : Event) : Unbroken e.stateText := by
  rw [stateText]
  cases e.state with
  | none => decide
  | some s => exact s.unbroken_label

@[simp] theorem unbroken_exitText (e : Event) : Unbroken e.exitText := by
  unfold exitText
  split
  · simp
    decide
  · exact unbroken_toString _
  · decide

/-! ## The line of an event -/

/-- The texts of an event that its line holds as they are. -/
def bareTexts (e : Event) : List String :=
  match e.kind with
  | .subscriberOverflow => [e.service.getD "unknown"]
  | .subscriberPanicked => [e.service.getD "unknown", e.reason.getD ""]
  | _ => []

/-- Every line begins with a tag. -/
theorem line_ne_empty (e : Event) : e.line ≠ "" := by
  cases hkind : e.kind <;> simp [line, hkind]

/-- **A line breaks exactly if a text in it does that stands there as it is.** -/
theorem unbroken_line_iff (e : Event) : Unbroken e.line ↔ ∀ s ∈ e.bareTexts, Unbroken s := by
  cases hkind : e.kind
  -- the error of the last report is on its line only if there is one
  case finalStatusReported =>
    simp only [line, bareTexts, hkind]
    split <;> simp +decide
  all_goals simp +decide [line, bareTexts, hkind]

/-- The text of a log for an event is one line if the line of the event has no break. -/
theorem isOneLine_logText (e : Event) : IsOneLine e.logText ↔ Unbroken e.line := by
  constructor
  · rintro ⟨t, -, hunbroken, ht⟩
    obtain rfl : e.line = t := (String.append_left_inj "\n").mp ht
    exact hunbroken
  · intro hunbroken
    exact ⟨e.line, e.line_ne_empty, hunbroken, rfl⟩

/-- **Which events are one line of a log.**  An event about a full queue is one exactly if the name of the
observer breaks no line; an event about a panic, if neither the name of the observer nor what it left in
its panic does; and every other event is one, whatever its texts hold. -/
theorem isOneLine_logText_iff (e : Event) :
    IsOneLine e.logText ↔
      (e.kind = .subscriberOverflow → Unbroken (e.service.getD "unknown")) ∧
      (e.kind = .subscriberPanicked →
        Unbroken (e.service.getD "unknown") ∧ Unbroken (e.reason.getD "")) := by
  rw [isOneLine_logText, unbroken_line_iff]
  cases hkind : e.kind <;> simp [bareTexts, hkind]

/-- **A panic with two lines to tell makes two lines of a log.** -/
theorem panic_breaks_line : ¬ IsOneLine (panicked "probe" "first\nsecond").logText := by
  rw [isOneLine_logText_iff]
  rintro ⟨-, htexts⟩
  have hunbroken : Unbroken "first\nsecond" := (htexts rfl).2
  exact absurd hunbroken (by decide)

end Event

end Steward
