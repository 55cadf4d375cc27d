import Steward.Host.Record

/-!
# Proofs/Host/Record — what a record keeps of a status

Each field of a record forgets something: the accepted set its meaningless bits, a wait hint what is
below a millisecond or above the largest word, an exit code whose zero it is.  Nothing else is lost.
For the accepted set and the exit code that is shown by reading the fields back: `mask_and` reads one
flag off the mask, `ofFields` an exit code off its two fields.

* `fields_eq_fields_iff` — the exit fields tell all codes apart but the two zeros.
* `mask_eq_mask_iff` — the mask tells the four known flags and nothing more.
* `millisWord_toNat` — a wait hint becomes whole milliseconds, cut off at the largest word.
* `ofStatus_keeps` — two reports have the same record exactly if they agree up to these losses.
-/

namespace Steward

namespace ExitCode

/-- The exit code that two exit fields stand for: the service's own if there is one, else the
host's. -/
def ofFields (exit specific : UInt32) : ExitCode :=
  if specific = 0 then ⟨false, exit⟩ else ⟨true, specific⟩

/-- The same exit code, with zero taken for the host's number. -/
def settled (e : ExitCode) : ExitCode := if e.code = 0 then success else e

/-- **An exit code is read back from its fields**, up to whose zero it is.  The marker is no
obstacle, as only the service's own number decides how it is read. -/
theorem ofFields_fields (e : ExitCode) : ofFields e.fields.1 e.fields.2 = e.settled := by
  obtain ⟨specific, code⟩ := e
  by_cases hzero : code = 0
  · simp [fields, isSuccess, ofFields, settled, success, hzero]
  · cases specific <;> simp [fields, isSuccess, ofFields, settled, hzero]

/-- The fields do not depend on whose zero a code is. -/
theorem fields_settled (e : ExitCode) : e.settled.fields = e.fields := by
  by_cases hzero : e.code = 0
  · simp [settled, success, fields, isSuccess, hzero]
  · rw [settled, if_neg hzero]

theorem settled_eq_settled_iff {e₁ e₂ : ExitCode} :
    e₁.settled = e₂.settled ↔ e₁ = e₂ ∨ e₁.code = 0 ∧ e₂.code = 0 := by
  obtain ⟨specific₁, code₁⟩ := e₁
  obtain ⟨specific₂, code₂⟩ := e₂
  by_cases h₁ : code₁ = 0 <;> by_cases h₂ : code₂ = 0 <;>
    simp only [settled, success, h₁, h₂, if_true, if_false, ExitCode.mk.injEq] <;> grind

/-- **The exit fields tell all codes apart but the two zeros.** -/
theorem fields_eq_fields_iff {e₁ e₂ : ExitCode} :
    e₁.fields = e₂.fields ↔ e₁ = e₂ ∨ e₁.code = 0 ∧ e₂.code = 0 := by
  rw [← settled_eq_settled_iff]
  constructor
  · intro h
    rw [← ofFields_fields, ← ofFields_fields, h]
  · intro h
    rw [← fields_settled, ← fields_settled e₂, h]

example : fields ⟨false, serviceMarker⟩ = (1066, 0) ∧
    fields ⟨true, serviceMarker⟩ = (1066, 1066) := by decide

end ExitCode

namespace Accepted

/-- **A flag is read off the mask** by its own bit: no two flags share one. -/
theorem mask_and (a : Accepted) {f : Accepted × UInt32} (hf : f ∈ hostBits) :
    a.mask &&& f.2 = if a.contains f.1 then f.2 else 0 := by
  simp only [hostBits, List.mem_cons, List.not_mem_nil, or_false] at hf
  simp only [mask, hostBits, List.filter]
  obtain rfl | rfl | rfl | rfl := hf <;>
    cases a.contains .stop <;> cases a.contains .pauseContinue <;>
    cases a.contains .shutdown <;> cases a.contains .preShutdown <;> rfl

theorem contains_eq_of_mask_eq {a b : Accepted} (h : a.mask = b.mask) {f : Accepted × UInt32}
    (hf : f ∈ hostBits) : a.contains f.1 = b.contains f.1 := by
  have hbit : f.2 ≠ 0 := by
    simp only [hostBits, List.mem_cons, List.not_mem_nil, or_false] at hf
    obtain rfl | rfl | rfl | rfl := hf <;> decide
  have hread := mask_and a hf
  rw [h, mask_and b hf] at hread
  cases hₐ : a.contains f.1 <;> cases hb : b.contains f.1 <;> simp_all

/-- **The mask tells the four known flags and nothing more**: it is blind to meaningless bits. -/
theorem mask_eq_mask_iff {a b : Accepted} :
    a.mask = b.mask ↔ ∀ f ∈ named, a.contains f.2 = b.contains f.2 := by
  -- the host's table has the flags of `named` in another order
  have hsame : (∀ f ∈ named, a.contains f.2 = b.contains f.2) ↔
      ∀ f ∈ hostBits, a.contains f.1 = b.contains f.1 := by
    simp [named, hostBits]
    grind
  rw [hsame]
  refine ⟨fun h f hf => contains_eq_of_mask_eq h hf, fun h => ?_⟩
  rw [mask, mask, List.filter_congr h]

end Accepted

namespace Duration

/-- The whole span in nanoseconds. -/
def inNanos (d : Duration) : Nat := d.secs.toNat * 1000000000 + d.nanos.toNat

/-- Whole milliseconds are the floor of the exact ones. -/
theorem millis_eq (d : Duration) : d.millis = d.inNanos / 1000000 := by
  unfold millis inNanos
  omega

/-- **A wait hint becomes whole milliseconds, cut off at the largest word** — for every duration,
the largest one as well. -/
theorem millisWord_toNat (d : Duration) :
    d.millisWord.toNat = min (d.inNanos / 1000000) (UInt32.size - 1) := by
  rw [millisWord, millis_eq]
  exact UInt32.toNat_ofNat_of_lt' (by simp only [UInt32.size]; omega)

theorem millisWord_eq_millisWord_iff {d₁ d₂ : Duration} :
    d₁.millisWord = d₂.millisWord ↔
      min (d₁.inNanos / 1000000) (UInt32.size - 1) = min (d₂.inNanos / 1000000) (UInt32.size - 1) := by
  rw [← UInt32.toNat_inj, millisWord_toNat, millisWord_toNat]

end Duration

namespace Record

/-- The exit code the two exit fields of a record stand for. -/
def exit (r : Record) : ExitCode := .ofFields r.exitCode r.specificExitCode

/-- Two reports have the same record exactly if each field is the same. -/
theorem ofStatus_eq_ofStatus_iff {s₁ s₂ : Status} {e₁ e₂ : ExitCode} :
    ofStatus s₁ e₁ = ofStatus s₂ e₂ ↔
      s₁.state.raw = s₂.state.raw ∧ s₁.accepted.mask = s₂.accepted.mask ∧
      s₁.checkpoint = s₂.checkpoint ∧ s₁.wait.millisWord = s₂.wait.millisWord ∧
      e₁.fields = e₂.fields := by
  simp only [ofStatus, Record.mk.injEq, Prod.ext_iff, true_and]
  grind

/-- **A record loses exactly what it must.**  Two reports have the same record if and only if they
agree in the state, in the four known flags, in the checkpoint, in the whole milliseconds to wait up
to the largest word, and in the exit code unless it is zero in both.  So an exit code is read back
from the record up to whose zero it is, and a number of the host is never taken for one of the
service, not even the number that marks the service's own codes. -/
theorem ofStatus_keeps :
    (∀ (s₁ s₂ : Status) (e₁ e₂ : ExitCode),
      ofStatus s₁ e₁ = ofStatus s₂ e₂ ↔
        s₁.state = s₂.state ∧
        (∀ f ∈ Accepted.named, s₁.accepted.contains f.2 = s₂.accepted.contains f.2) ∧
        s₁.checkpoint = s₂.checkpoint ∧
        min (s₁.wait.inNanos / 1000000) (UInt32.size - 1) =
          min (s₂.wait.inNanos / 1000000) (UInt32.size - 1) ∧
        (e₁ = e₂ ∨ e₁.code = 0 ∧ e₂.code = 0)) ∧
    (∀ (s : Status) (e : ExitCode),
      (ofStatus s e).exit = if e.code = 0 then .success else e) ∧
    ∀ (s₁ s₂ : Status) (host service : UInt32),
      ((ofStatus s₁ ⟨false, host⟩).exitCode = (ofStatus s₂ ⟨true, service⟩).exitCode ∧
        (ofStatus s₁ ⟨false, host⟩).specificExitCode =
          (ofStatus s₂ ⟨true, service⟩).specificExitCode) ↔
      host = 0 ∧ service = 0 := by
  refine ⟨fun s₁ s₂ e₁ e₂ => ?_, fun s e => ExitCode.ofFields_fields e,
    fun s₁ s₂ host service => ?_⟩
  · have hstate : s₁.state.raw = s₂.state.raw ↔ s₁.state = s₂.state :=
      ⟨ServiceState.raw_injective, congrArg _⟩
    rw [ofStatus_eq_ofStatus_iff, hstate, Accepted.mask_eq_mask_iff,
      Duration.millisWord_eq_millisWord_iff, ExitCode.fields_eq_fields_iff]
  · simp only [ofStatus]
    rw [← Prod.ext_iff, ExitCode.fields_eq_fields_iff]
    simp

end Record

end Steward
