import Steward.Proofs.Bridge.Cause

/-!
# Proofs/Bridge/Failure — when a failed run looks like success

A run fails if anything but the handler's return ends it.  The codes reserved for the supervisor are
not zero, so a violation stamped by a guard, a panic and a refusal without a number never look like
success.  A refusal with a number takes the host's number as it is, zero among them, and zero is
success whoever says it: that one failure cannot be told from a clean exit.

* `flagged_code_after` — the only code of a flagged event is the one a guard stamps.
* `success_iff_refused_zero` — a failed run looks like success exactly if the host refused a status
  with the number zero.
-/

namespace Steward

/-- A guard flags with its own code only. -/
theorem Guard.code_of_stamp {g : Guard} {caller : ThreadId} {call : ControlCall} {code : UInt32}
    (h : (g.stamp caller call).error = some code) : code = ExitCode.crossThreadCall := by
  unfold stamp at h
  split at h
  · cases h
  · exact (Option.some.inj h).symm

/-- The host is told of no error exactly if the exit code is success. -/
theorem Record.exitCode_eq_zero_iff (s : Status) (e : ExitCode) :
    (ofStatus s e).exitCode = 0 ↔ e.isSuccess = true := by
  change e.fields.1 = 0 ↔ _
  cases hsuccess : e.isSuccess with
  | true => simp [ExitCode.fields, hsuccess]
  | false =>
    have hcode : e.code ≠ 0 := by
      intro hzero
      simp [ExitCode.isSuccess, hzero] at hsuccess
    cases hspecific : e.specific <;>
      simp [ExitCode.fields, hsuccess, hspecific, hcode, ExitCode.serviceMarker]

/-- A reserved code is no success, and a number of the host is one only if it is zero. -/
theorem Cause.isSuccess_iff {c : Cause} (hflag : ∀ code, c = .flagged code →
    code = ExitCode.crossThreadCall) (hfailed : ∀ exit, c ≠ .exited exit) :
    c.exit.isSuccess = true ↔ ∃ s, c = .refused s (.numbered 0) := by
  cases c with
  | flagged code =>
    obtain rfl := hflag code rfl
    simp [exit, ExitCode.isSuccess, ExitCode.ofService, ExitCode.crossThreadCall]
  | refused s e =>
    cases e with
    | numbered code => simp [exit, ExitCode.isSuccess, ExitCode.ofService]
    | described text =>
      simp [exit, ExitCode.isSuccess, ExitCode.ofService, ExitCode.statusReportFailed]
  | exited exit => exact absurd rfl (hfailed exit)
  | panicked info => simp [exit, ExitCode.isSuccess, ExitCode.ofService, ExitCode.handlerPanicked]

namespace Bridge

variable {σ : Type} {b b' : Bridge σ}

/-! ## Where the flagged events come from -/

/-- Every control event that is offered was stamped by a guard. -/
def Stamped (as : List Action) : Prop :=
  ∀ ticket e, .offerControl ticket e ∈ as →
    ∃ (g : Guard) (caller : ThreadId) (call : ControlCall), e = g.stamp caller call

/-- What is on the control link, and what was read from it, was offered. -/
def Brought (as : List Action) (b : Bridge σ) : Prop :=
  ∀ e ∈ controlsRead b.log ++ b.control.items, ∃ ticket, .offerControl ticket e ∈ as

theorem Brought.makes [StatusHost σ] {as : List Action} {m : Move} (h : Brought as b)
    (hm : b.Makes m b') : Brought as b' := by
  intro e he
  rw [hm.controlsRead] at he
  obtain ⟨hsame, hnone⟩ | ⟨d, p, -, -, hp, hread, htake⟩ | ⟨-, hnone, hclose⟩ := hm.control
  · rw [hsame, hnone, Option.toList_none, List.append_nil] at he
    exact h e he
  · have hitems : b.control.items = p.item :: b'.control.items := by
      simp [Link.items, htake, hp, Link.take]
    rw [hread, Option.toList_some, List.append_assoc, List.singleton_append, ← hitems] at he
    exact h e he
  · rw [hclose, hnone, Option.toList_none, List.append_nil] at he
    exact h e (List.mem_append_left _ (by simpa [Link.items, Link.close] using he))

theorem Brought.happens {as : List Action} {a : Action} (h : Brought as b)
    (ha : b.Happens a b') : Brought (as ++ [a]) b' := by
  intro e he
  rw [ha.controlsRead] at he
  have hbefore : e ∈ controlsRead b.log ++ b.control.items →
      ∃ ticket, .offerControl ticket e ∈ as ++ [a] := by
    intro hmem
    obtain ⟨ticket, hoffer⟩ := h e hmem
    exact ⟨ticket, List.mem_append_left _ hoffer⟩
  obtain hsame | ⟨ticket, e', rfl, hmore⟩ := ha.control_items
  · exact hbefore (hsame ▸ he)
  · rw [hmore, ← List.append_assoc] at he
    obtain hmem | hmem := List.mem_append.mp he
    · exact hbefore hmem
    · obtain rfl := List.mem_singleton.mp hmem
      exact ⟨ticket, List.mem_append_right _ (List.mem_singleton_self _)⟩

/-- **What is read was offered.** -/
theorem brought_after [StatusHost σ] (name handlerName : String) (context : Context) (host : σ)
    (history : List Step) :
    Brought (acts history) ((fresh name handlerName context host).after history) :=
  invariant_after (P := fun as _ b => Brought as b) (fun h hm => h.makes hm)
    (fun h ha => h.happens ha) (by simp [Brought, fresh, controlsRead, Link.items, Link.fresh])
    history

/-- The cause that is a flagged event was read. -/
theorem read_of_flagged {ms : List Move} {log : List Happening} {code : UInt32}
    (h : Cause.flagged code ∈ causes ms log) : ∃ e ∈ controlsRead log, e.error = some code := by
  obtain h | h := List.mem_append.mp h
  · obtain ⟨happening, hmem, hcause⟩ := List.mem_filterMap.mp h
    unfold Happening.cause? at hcause
    split at hcause
    · rename_i e
      obtain ⟨code', herror, hcode⟩ := Option.map_eq_some_iff.mp hcause
      obtain rfl := Cause.flagged.inj hcode
      exact ⟨e, List.mem_filterMap.mpr ⟨.read e, hmem, rfl⟩, herror⟩
    · cases Option.some.inj hcause
    · cases hcause
  · obtain ⟨m, -, hcause⟩ := List.mem_filterMap.mp h
    unfold Move.cause? at hcause
    split at hcause
    · rename_i c
      cases c <;> cases Option.some.inj hcause
    · cases hcause

/-- **The code of a flagged event is the guard's.** -/
theorem flagged_code_after [StatusHost σ] (name handlerName : String) (context : Context)
    (host : σ) {history : List Step} (hstamped : Stamped (acts history)) {code : UInt32}
    (h : .flagged code ∈ causes ((fresh name handlerName context host).moves history)
      ((fresh name handlerName context host).after history).log) :
    code = ExitCode.crossThreadCall := by
  obtain ⟨e, hread, herror⟩ := read_of_flagged h
  obtain ⟨ticket, hoffer⟩ := brought_after name handlerName context host history e
    (List.mem_append_left _ hread)
  obtain ⟨g, caller, call, rfl⟩ := hstamped ticket e hoffer
  exact Guard.code_of_stamp herror

/-! ## A failed run -/

/-- **A failed run that looks like success.**  Let a run have ended for a cause other than the
handler's return, all control events having been stamped by a guard.  Then the exit code is a success,
and the last record tells the host of no error, exactly if the host refused a status with the number
zero. -/
theorem success_iff_refused_zero [StatusHost σ] (name handlerName : String) (context : Context)
    (host : σ) (history : List Step) (hstamped : Stamped (acts history)) {exit : ExitCode}
    {left : Bool}
    (hended : ((fresh name handlerName context host).after history).ending? =
      some (.stopped exit left))
    {c : Cause}
    (hc : c ∈ causes ((fresh name handlerName context host).moves history)
      ((fresh name handlerName context host).after history).log)
    (hfailed : ∀ exit, c ≠ .exited exit) :
    let records :=
      (reports ((fresh name handlerName context host).after history).log).map (·.2.1)
    (exit.isSuccess = true ↔ ∃ s, c = .refused s (.numbered 0)) ∧
    ∃ last, records.getLast? = some last ∧ last.isStopped = true ∧
      (last.exitCode = 0 ↔ ∃ s, c = .refused s (.numbered 0)) := by
  intro records
  have hexit : exit = c.exit := by
    obtain ⟨cause, hcauses, hverdict, -⟩ :=
      judged_after name handlerName context host history
    rw [hcauses, Option.mem_toList] at hc
    rw [hc, verdict?, stage_of_ending hended] at hverdict
    exact (Prod.mk.inj (Option.some.inj hverdict)).1
  have hsuccess : exit.isSuccess = true ↔ ∃ s, c = .refused s (.numbered 0) := by
    rw [hexit]
    refine c.isSuccess_iff (fun code hflag => ?_) hfailed
    exact flagged_code_after name handlerName context host hstamped (hflag ▸ hc)
  obtain ⟨s, r, -, hlast⟩ := last_report_after name handlerName context host history hended
  refine ⟨hsuccess, Record.ofStatus .stopped exit, ?_, isStopped_ofStatus _ _, ?_⟩
  · change (List.map _ _).getLast? = _
    rw [List.getLast?_map, hlast]
    rfl
  · rw [Record.exitCode_eq_zero_iff, hsuccess]

/-- The host refuses the first status, and gives zero for the number of its error. -/
def refusedWithZero : List Step :=
  [.act (.store (.ok ⟨1, ["svc"]⟩)), .act .announce, .move, .act (.offerStatus 1 (.ofState .running)), .move,
    .move, .move, .move, .move, .move]

/-- A run that fails by a refusal with the number zero leaves the exit code of a success, and its
last record is that of a clean exit. -/
theorem refused_zero_looks_like_success :
    let b := (fresh "svc" "handler" 0 (⟨[(0, .numbered 0)], 0⟩ : ScriptedHost)).after refusedWithZero
    b.ending? = some (.stopped (.ofService 0) true) ∧
    (ExitCode.ofService 0).isSuccess = true ∧
    ∃ last, ((reports b.log).map (·.2.1)).getLast? = some last ∧ last.exitCode = 0 := by
  intro b
  have hended : b.ending? = some (.stopped (.ofService 0) true) := rfl
  have hcause : Cause.refused (.ofState .running) (.numbered 0) ∈
      causes ((fresh "svc" "handler" 0 (⟨[(0, .numbered 0)], 0⟩ : ScriptedHost)).moves
        refusedWithZero) b.log := List.mem_singleton_self _
  have hstamped : Stamped (acts refusedWithZero) := by
    intro ticket e he
    simp [refusedWithZero, acts] at he
  obtain ⟨hsuccess, last, hlast, -, hzero⟩ := success_iff_refused_zero "svc" "handler" 0
    (⟨[(0, .numbered 0)], 0⟩ : ScriptedHost) refusedWithZero hstamped hended hcause (by simp)
  exact ⟨hended, hsuccess.mpr ⟨_, rfl⟩, last, hlast, hzero.mpr ⟨_, rfl⟩⟩

end Bridge

end Steward
