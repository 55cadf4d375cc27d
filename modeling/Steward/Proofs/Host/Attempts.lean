import Steward.Proofs.Host.Dispatcher

/-!
# Proofs/Host/Attempts — reports at a simulated host, and the one that fails

Anybody may report to a simulated host, at any time, whatever else is done to it in between.  A report
with another handle than the host's is refused and not counted.  All others are the attempts, and a fault
that was built in hits one of them by its number.

What an attempt goes by and what it leaves — the fault, the count, the accepted records — is the *book* of
the host.  Only attempts write in it (`attempt_or_quiet`), so those of a history are numbered on from
where the book stands (`result_of_attempt`).  The count is a word: after 2 ^ 64 attempts the numbers start
over, and so does the fault.

* `attempt_writes`, `attempt_foreign` — what a report comes to, and what it writes in the book.
* `report_failed` — a report that fails leaves all but the count as it was.
* `book_step` — no other step touches the book.
* `result_of_attempt`, `accepted_after` — the results of the attempts and the records accepted, along
  every history.
* `fault_hits_one_attempt` — among fewer reports than the word can count, the fault hits exactly one.
-/

namespace Steward

namespace SimulatedHost

/-! ## One report -/

/-- What an attempt to report goes by, and what it leaves. -/
structure Book where
  fault : Option (Nat × HostError)
  attempts : UInt64
  accepted : List Record

/-- The book of a host. -/
def book (h : SimulatedHost) : Book := ⟨h.reportFault, h.attempts, h.accepted⟩

/-- What the attempt with this number comes to. -/
def Book.verdict (b : Book) (number : Nat) : Except HostError Unit :=
  match b.fault with
  | some (k, e) => if k = number then .error e else .ok ()
  | none => .ok ()

/-- The book after an attempt with this record. -/
def Book.attempt (b : Book) (r : Record) : Book where
  fault := b.fault
  attempts := b.attempts + 1
  accepted := b.accepted ++ if (b.verdict b.attempts.toNat).isOk then [r] else []

/-- The attempt with the number of the fault fails. -/
theorem Book.verdict_fault {b : Book} {k : Nat} {e : HostError} (hfault : b.fault = some (k, e)) :
    b.verdict k = .error e := by
  rw [verdict, hfault]
  exact if_pos rfl

/-- All others succeed. -/
theorem Book.verdict_other {b : Book} {n : Nat} (hother : ∀ e, b.fault ≠ some (n, e)) :
    b.verdict n = .ok () := by
  rw [verdict]
  split
  case h_1 k e hfault => exact if_neg fun hk : k = n => hother e (hk ▸ hfault)
  case h_2 => rfl

@[simp] theorem book_enqueue (h : SimulatedHost) (c : QueuedCommand) :
    (h.enqueue c).book = h.book := by
  unfold enqueue
  split <;> rfl

/-- A registration, whether the host agrees to it or not, leaves the book as it was. -/
@[simp] theorem book_register (h : SimulatedHost) (context : Context) :
    (h.register context).1.book = h.book := by
  unfold register
  split
  · exact book_enqueue h .exit
  · rfl

/-- So does the beginning of a dispatch. -/
@[simp] theorem book_beginDispatch (h : SimulatedHost) (name : String) :
    (h.beginDispatch name).1.book = h.book := by
  unfold beginDispatch
  split <;> rfl

/-- **A report with another handle** is refused for that, and changes nothing. -/
theorem attempt_foreign (h : SimulatedHost) {given : Handle} (hgiven : given ≠ handle) (r : Record) :
    h.attempt given r = (h, .error invalidHandle) := by
  rw [attempt, if_pos hgiven]

/-- The book says whether an attempt fails; one that does not has its record accepted. -/
theorem attempt_handle (h : SimulatedHost) (r : Record) :
    h.attempt handle r = match h.book.verdict h.attempts.toNat with
      | .error e => ({ h with attempts := h.attempts + 1 }, .error e)
      | .ok () => (({ h with attempts := h.attempts + 1 } : SimulatedHost).accept r, .ok ()) := by
  rw [attempt, if_neg (not_not_intro rfl)]
  simp only [Book.verdict, book]
  cases h.reportFault with
  | none => rfl
  | some fault =>
    dsimp only
    split <;> rfl

/-- **An attempt** comes to what the book says of its number, and is written down. -/
theorem attempt_writes (h : SimulatedHost) (r : Record) :
    (h.attempt handle r).2 = h.book.verdict h.attempts.toNat ∧
      (h.attempt handle r).1.book = h.book.attempt r := by
  have hnumber : h.book.attempts = h.attempts := rfl
  rw [attempt_handle, Book.attempt, hnumber]
  cases h.book.verdict h.attempts.toNat with
  | ok => exact ⟨rfl, rfl⟩
  | error e => exact ⟨rfl, congrArg (Book.mk _ _) (List.append_nil _).symm⟩

/-- A report that is not accepted is over. -/
theorem report_of_error {h : SimulatedHost} {given : Handle} {r : Record} {h' : SimulatedHost}
    {e : HostError} (hattempt : h.attempt given r = (h', .error e)) :
    h.report given r = (h', .error e) := by
  rw [report, hattempt]
  rfl

/-- **A report that fails leaves all but the count as it was**: the accepted records, the callback, the
queue. -/
theorem report_failed (h : SimulatedHost) {given : Handle} {r : Record} {e : HostError}
    (hfail : (h.report given r).2 = .error e) :
    (h.report given r).1 = { h with attempts := (h.report given r).1.attempts } := by
  obtain ⟨n, e', heq⟩ | heq := h.attempt_cases given r
  · rw [report_of_error heq]
  · rw [report, heq] at hfail
    cases hfail

end SimulatedHost

namespace Dispatcher

open SimulatedHost (handle invalidHandle)

/-! ## The reports of a history -/

/-- A report that was made, with the host as it was before it. -/
structure MadeReport where
  host : SimulatedHost
  given : Handle
  record : Record

namespace MadeReport

/-- What the host answered. -/
def result (m : MadeReport) : Except HostError Unit := (m.host.report m.given m.record).2

/-- The host after it. -/
def after (m : MadeReport) : SimulatedHost := (m.host.report m.given m.record).1

end MadeReport

/-- The reports that a step makes. -/
def reportsOf (d : Dispatcher) : Step → List MadeReport
  | .report given r => [⟨d.host, given, r⟩]
  | _ => []

/-- The reports made along a history, in order. -/
def reportsAlong (d : Dispatcher) : List Step → List MadeReport
  | [] => []
  | s :: later => d.reportsOf s ++ (d.step s).reportsAlong later

/-- The attempts among these reports: those with the handle of the host. -/
def attemptsIn (made : List MadeReport) : List MadeReport := made.filter (·.given = handle)

/-- The records of the reports that were agreed to. -/
def agreedIn (made : List MadeReport) : List Record :=
  (made.filter (·.result.isOk)).map (·.record)

theorem attemptsIn_append (made made' : List MadeReport) :
    attemptsIn (made ++ made') = attemptsIn made ++ attemptsIn made' := List.filter_append ..

theorem agreedIn_append (made made' : List MadeReport) :
    agreedIn (made ++ made') = agreedIn made ++ agreedIn made' := by
  rw [agreedIn, List.filter_append, List.map_append]
  rfl

theorem agreedIn_singleton (m : MadeReport) :
    agreedIn [m] = if m.result.isOk then [m.record] else [] := by
  rw [agreedIn, List.filter_singleton]
  cases m.result.isOk <;> rfl

/-- A step that makes no report leaves the book as it was. -/
theorem book_step {d : Dispatcher} {s : Step} (hs : d.reportsOf s = []) :
    (d.step s).host.book = d.host.book := by
  cases s with
  | report => cases hs
  | clear =>
    rw [step]
    split <;> rfl
  | exit =>
    rw [step]
    split
    · rfl
    · exact d.host.book_enqueue .exit
  | register context => exact d.host.book_register context
  | queue c => exact d.host.book_enqueue c
  | dispatch name context =>
    have hbegin := d.host.book_beginDispatch name
    rw [step, dispatch]
    generalize d.host.beginDispatch name = begun at hbegin ⊢
    obtain ⟨h, r | raw⟩ := begun <;> exact hbegin
  | leave panicked =>
    rw [step]
    split
    · cases panicked <;> rfl
    · rfl
  | take =>
    rw [step, take]
    split
    · split
      · rfl
      · dsimp only
        split <;> rfl
    · rfl
  | look | call | answer =>
    rw [step]
    split <;> rfl

/-- **A step makes an attempt, which is written in the book, or leaves the book as it was.** -/
theorem attempt_or_quiet (d : Dispatcher) (s : Step) :
    (∃ r, attemptsIn (d.reportsOf s) = [⟨d.host, handle, r⟩] ∧
        agreedIn (d.reportsOf s) =
          (if (d.host.book.verdict d.host.attempts.toNat).isOk then [r] else []) ∧
        (d.step s).host.book = d.host.book.attempt r) ∨
      (attemptsIn (d.reportsOf s) = [] ∧ agreedIn (d.reportsOf s) = [] ∧
        (d.step s).host.book = d.host.book) := by
  cases s with
  | report given r =>
    by_cases hgiven : given = handle
    · subst hgiven
      obtain ⟨hresult, hbook⟩ := d.host.attempt_writes r
      refine .inl ⟨r, rfl, ?_, hbook⟩
      rw [← hresult]
      exact agreedIn_singleton _
    · have hrefused := d.host.attempt_foreign hgiven r
      refine .inr ⟨?_, ?_, congrArg (·.1.book) hrefused⟩
      · simp [attemptsIn, reportsOf, hgiven]
      · rw [reportsOf, agreedIn_singleton, MadeReport.result, SimulatedHost.report_of_error hrefused]
        rfl
  | _ => exact .inr ⟨rfl, rfl, book_step rfl⟩

/-! ## All reports of a history -/

/-- **The records accepted are those of the reports that were agreed to**, in order. -/
theorem accepted_after (d : Dispatcher) (history : List Step) :
    (d.after history).host.accepted = d.host.accepted ++ agreedIn (d.reportsAlong history) := by
  induction history generalizing d with
  | nil => exact (List.append_nil _).symm
  | cons s later ih =>
    have hstep : (d.step s).host.accepted = d.host.accepted ++ agreedIn (d.reportsOf s) := by
      obtain ⟨r, -, hagreed, hbook⟩ | ⟨-, hagreed, hbook⟩ := d.attempt_or_quiet s
      · rw [hagreed]
        exact congrArg SimulatedHost.Book.accepted hbook
      · rw [hagreed, List.append_nil]
        exact congrArg SimulatedHost.Book.accepted hbook
    rw [after_cons, ih, hstep, reportsAlong, agreedIn_append, List.append_assoc]

/-- **The attempts are numbered on from where the book stands**, and each comes to what the book says of
its number. -/
theorem result_of_attempt (d : Dispatcher) (history : List Step) {n : Nat} {m : MadeReport}
    (hm : (attemptsIn (d.reportsAlong history))[n]? = some m) :
    m.result = d.host.book.verdict (d.host.attempts + UInt64.ofNat n).toNat := by
  induction history generalizing d n with
  | nil => cases hm
  | cons s later ih =>
    rw [reportsAlong, attemptsIn_append] at hm
    obtain ⟨r, hattempt, -, hbook⟩ | ⟨hnone, -, hbook⟩ := d.attempt_or_quiet s
    · -- the attempt of this step is number zero, and those of later steps count from the book after it
      rw [hattempt, List.singleton_append] at hm
      cases n with
      | zero =>
        obtain rfl := Option.some.inj hm
        exact (d.host.attempt_writes r).1.trans
          (congrArg (d.host.book.verdict ·.toNat) (UInt64.add_zero _).symm)
      | succ n =>
        have hlater := ih (d.step s) hm
        have hnumber : (d.step s).host.attempts = d.host.attempts + 1 :=
          congrArg SimulatedHost.Book.attempts hbook
        rw [hbook, hnumber, UInt64.add_assoc, UInt64.add_comm 1] at hlater
        rwa [UInt64.ofNat_add]
    · rw [hnone, List.nil_append] at hm
      have hnumber : (d.step s).host.attempts = d.host.attempts :=
        congrArg SimulatedHost.Book.attempts hbook
      rw [ih (d.step s) hm, hbook, hnumber]

/-- **A fault hits one attempt**: these reports were made to a host, which then has accepted these
records. -/
structure FaultHitsOnce (h : SimulatedHost) (made : List MadeReport) (accepted : List Record) :
    Prop where
  /-- A report with another handle fails for that; it is no attempt and changes nothing. -/
  foreign : ∀ m ∈ made, m.given ≠ handle → m.result = .error invalidHandle ∧ m.after = m.host
  /-- The attempt with the number of the fault, counted from zero, fails with its error. -/
  hit : ∀ {k : Nat} {e : HostError} {m : MadeReport}, h.reportFault = some (k, e) →
    (attemptsIn made)[k]? = some m → m.result = .error e
  /-- All other attempts succeed. -/
  others : ∀ {n : Nat} {m : MadeReport}, (∀ e, h.reportFault ≠ some (n, e)) →
    (attemptsIn made)[n]? = some m → m.result = .ok ()
  /-- A report that fails leaves all but the count as it was: the accepted records, the callback, the
  queue. -/
  failed : ∀ m ∈ made, ∀ e, m.result = .error e →
    m.after = { m.host with attempts := m.after.attempts }
  /-- The records accepted are those of the reports that succeeded, in order. -/
  accepted : accepted = h.accepted ++ agreedIn made

/-- **A report fault hits exactly one attempt.**  Whatever is reported to a new host, by whom and with
which handles, and whatever else is done to it in between: of fewer than 2 ^ 64 reports those with another
handle fail for that and are not counted; of the rest, the one with the number of the fault fails, with
the error of the fault, and all others succeed.  What fails leaves the accepted records, the callback and
the queue as they were, and the records accepted are those of the reports that succeeded. -/
theorem fault_hits_one_attempt {h : SimulatedHost} (hnew : h.attempts = 0) {history : List Step}
    (hfew : ((idle h).reportsAlong history).length < UInt64.size) :
    FaultHitsOnce h ((idle h).reportsAlong history) ((idle h).after history).host.accepted := by
  have hresult : ∀ {n m}, (attemptsIn ((idle h).reportsAlong history))[n]? = some m →
      m.result = h.book.verdict n := by
    intro n m hm
    have hn : n < (attemptsIn ((idle h).reportsAlong history)).length :=
      (List.getElem?_eq_some_iff.mp hm).1
    have hattempts := List.length_filter_le (·.given = handle) ((idle h).reportsAlong history)
    have hnumber : (h.attempts + UInt64.ofNat n).toNat = n := by
      rw [hnew, UInt64.zero_add]
      exact UInt64.toNat_ofNat_of_lt' (hn.trans_le (hattempts.trans hfew.le))
    rw [result_of_attempt (idle h) history hm]
    exact congrArg h.book.verdict hnumber
  exact {
    foreign := fun m _ hgiven => by
      rw [MadeReport.result, MadeReport.after,
        SimulatedHost.report_of_error (m.host.attempt_foreign hgiven m.record)]
      exact ⟨rfl, rfl⟩
    hit := fun hfault hm => (hresult hm).trans (SimulatedHost.Book.verdict_fault hfault)
    others := fun hother hm => (hresult hm).trans (SimulatedHost.Book.verdict_other hother)
    failed := fun m _ e hfail => m.host.report_failed hfail
    accepted := accepted_after (idle h) history }

/-- Reports of a service that ends, with a wrong handle in between: the fault hits the second attempt, and
the last report still counts. -/
def stumbling : List Step :=
  [.register 7, .report 1 (.ofState ServiceState.running.raw),
    .report handle (.ofState ServiceState.running.raw),
    .report 9 (.ofState ServiceState.stopped.raw), .queue (.control 1 0 0),
    .report handle (.ofState ServiceState.stopped.raw),
    .report handle (.ofState ServiceState.stopped.raw), .clear, .exit]

theorem stumbling_hit_once :
    let h : SimulatedHost := { reportFault := some (1, .numbered 5) }
    let made := (idle h).reportsAlong stumbling
    let d := (idle h).after stumbling
    made.map (·.result) =
      [.error invalidHandle, .ok (), .error invalidHandle, .error (.numbered 5), .ok ()] ∧
    made.map (·.after.callback) = [some 7, some 7, some 7, some 7, none] ∧
    d.host.accepted.map (·.currentState) = [ServiceState.running.raw, ServiceState.stopped.raw] ∧
    d.host.queue = [.control 1 0 0, .exit] ∧
    FaultHitsOnce h made d.host.accepted :=
  ⟨rfl, rfl, rfl, rfl, fault_hits_one_attempt rfl (by decide)⟩

end Dispatcher

end Steward
