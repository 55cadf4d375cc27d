import Mathlib.Data.List.Infix
import Steward.Host.Dispatcher

/-!
# Proofs/Host/Dispatcher — what each step at a host keeps

What happens at a host is told by the log of its dispatcher.  Whatever is done from outside only fills
the queue and sets the slot of the callback (`Receives`); the dispatcher itself empties the queue.  So
the commands that came (`h.queue ++ queuedIn log`) are those taken and those still in the queue, until
dispatching is over, and what a look for the callback finds is read off the log before it
(`slotAfter`).

* `Receives.attempt` — a report, wherever it is made, can do no more than anybody outside.
* `does_step` — what one step does, guards and all.
* `Conserved.does`, `Answered.does`, `Ordered.does`, `Stopping.does` — each step conserves the commands,
  keeps the account of looks, calls and results and the order of a dispatch, and remembers which stopped
  records have yet to bring their exit.
* `kept_after` — what each step keeps, every history keeps.
-/

namespace Steward

namespace QueuedCommand

/-- The commands up to the first exit, and that exit. -/
def upToExit : List QueuedCommand → List QueuedCommand
  | [] => []
  | c :: rest => if c = .exit then [c] else c :: upToExit rest

theorem upToExit_append {l : List QueuedCommand} (hl : .exit ∉ l) (l' : List QueuedCommand) :
    upToExit (l ++ l') = l ++ upToExit l' := by
  induction l with
  | nil => rfl
  | cons c rest ih =>
    obtain ⟨hc, hrest⟩ := not_or.mp fun h => hl (List.mem_cons.mpr h)
    rw [List.cons_append, upToExit, if_neg (Ne.symm hc), ih hrest, List.cons_append]

/-- Nothing behind an exit counts. -/
theorem upToExit_append_exit (l l' : List QueuedCommand) :
    upToExit (l ++ .exit :: l') <+: l ++ [.exit] := by
  induction l with
  | nil => exact List.prefix_rfl
  | cons c rest ih =>
    rw [List.cons_append, List.cons_append, upToExit]
    split
    · exact List.prefix_append [c] _
    · exact (List.prefix_cons_inj c).mpr ih

/-- The call that a command asks of a callback with this context. -/
def asks (context : Context) : QueuedCommand → Option SimulatedHost.Callback
  | .control code eventType eventData => some ⟨⟨code, eventType, eventData, context⟩, false⟩
  | .foreign code => some ⟨⟨code, 0, 0, context⟩, true⟩
  | .exit => none

end QueuedCommand

open QueuedCommand (upToExit)

namespace SimulatedHost

theorem callback?_eq (h : SimulatedHost) (c : QueuedCommand) :
    h.callback? c = h.callback.bind (c.asks ·) := by
  cases c <;> cases hs : h.callback <;> simp [callback?, QueuedCommand.asks, hs]

/-- **A report is accepted or not.**  One that is not changes no more than the number of attempts. -/
theorem attempt_cases (h : SimulatedHost) (given : Handle) (r : Record) :
    (∃ n e, h.attempt given r = ({ h with attempts := n }, .error e)) ∨
      h.attempt given r = (({ h with attempts := h.attempts + 1 } : SimulatedHost).accept r, .ok ()) := by
  unfold attempt
  split
  · exact .inl ⟨h.attempts, invalidHandle, rfl⟩
  · dsimp only
    split
    · split
      · exact .inl ⟨_, _, rfl⟩
      · exact .inr rfl
    · exact .inr rfl

end SimulatedHost

namespace Duty

/-- The dispatcher is between two commands, or at one. -/
@[simp] def isServing : Duty → Bool
  | .waiting | .holding _ | .bound _ | .calling _ => true
  | _ => false

/-- The command it took and has not looked for the callback for. -/
@[simp] def held : Duty → List QueuedCommand
  | .holding c => [c]
  | _ => []

/-- The callback it found and has not called. -/
@[simp] def uncalled : Duty → List SimulatedHost.Callback
  | .bound k => [k]
  | _ => []

/-- The service that was entered or the callback has the word. -/
def isInside : Duty → Bool
  | .entering | .calling _ => true
  | _ => false

theorem uncalled_of_isInside {duty : Duty} (hd : duty.isInside) : duty.uncalled = [] := by
  cases duty with
  | bound => exact absurd hd Bool.false_ne_true
  | _ => rfl

/-- The call that has not returned. -/
@[simp] def unanswered : Duty → List SimulatedHost.Callback
  | .calling k => [k]
  | _ => []

end Duty

/-- The notice is of a stopped record that was accepted. -/
def Notice.isStop : Notice → Bool
  | .accepted r => r.isStopped
  | _ => false

/-- The notice is of a callback that was taken away. -/
def Notice.isCleared : Notice → Bool
  | .cleared => true
  | _ => false

/-- The notice is of something that anybody may do. -/
def Notice.isOutside : Notice → Bool
  | .queued _ | .registered _ | .accepted _ | .cleared => true
  | _ => false

namespace Dispatcher

/-! ## What is done from outside -/

/-- What anybody may do with a host: these commands come into the queue, and the slot of the callback
is as the news say. -/
structure Receives (h h' : SimulatedHost) (news : List Notice) : Prop where
  args : h'.args = h.args
  dispatchFault : h'.dispatchFault = h.dispatchFault
  noStart : h'.noStart = h.noStart
  stage : h'.stage = h.stage
  results : h'.results = h.results
  queue : h'.queue = h.queue ++ queuedIn news
  lost : h.stage = .ended → queuedIn news = []
  callback : h'.callback = slotAfter h.callback news
  outside : ∀ n ∈ news, n.isOutside

section Outside

variable {h h' : SimulatedHost} {news : List Notice}

/-- A view that shows nothing done from outside shows nothing of what was received. -/
theorem Receives.unseen {α : Type} (hr : Receives h h' news) {f : Notice → Option α}
    (hqueued : ∀ c, f (.queued c) = none) (hregistered : ∀ context, f (.registered context) = none)
    (haccepted : ∀ r, f (.accepted r) = none) (hcleared : f .cleared = none) : news.filterMap f = [] := by
  refine List.filterMap_eq_nil_iff.mpr fun n hn => ?_
  have houtside := hr.outside n hn
  cases n with
  | queued c => exact hqueued c
  | registered context => exact hregistered context
  | accepted r => exact haccepted r
  | cleared => exact hcleared
  | _ => exact absurd houtside Bool.false_ne_true

theorem Receives.entered (hr : Receives h h' news) : enteredIn news = [] :=
  hr.unseen (fun _ => rfl) (fun _ => rfl) (fun _ => rfl) rfl

theorem Receives.took (hr : Receives h h' news) : tookIn news = [] :=
  hr.unseen (fun _ => rfl) (fun _ => rfl) (fun _ => rfl) rfl

theorem Receives.looks (hr : Receives h h' news) : looksIn news = [] :=
  hr.unseen (fun _ => rfl) (fun _ => rfl) (fun _ => rfl) rfl

theorem Receives.calls (hr : Receives h h' news) : callsIn news = [] :=
  hr.unseen (fun _ => rfl) (fun _ => rfl) (fun _ => rfl) rfl

theorem Receives.returned (hr : Receives h h' news) : returnedIn news = [] :=
  hr.unseen (fun _ => rfl) (fun _ => rfl) (fun _ => rfl) rfl

theorem Receives.cameBack (hr : Receives h h' news) : cameBackIn news = [] :=
  hr.unseen (fun _ => rfl) (fun _ => rfl) (fun _ => rfl) rfl

end Outside

theorem Receives.trans {h h' h'' : SimulatedHost} {news news' : List Notice}
    (hr : Receives h h' news) (hr' : Receives h' h'' news') : Receives h h'' (news ++ news') where
  args := hr'.args.trans hr.args
  dispatchFault := hr'.dispatchFault.trans hr.dispatchFault
  noStart := hr'.noStart.trans hr.noStart
  stage := hr'.stage.trans hr.stage
  results := hr'.results.trans hr.results
  queue := by rw [hr'.queue, hr.queue, queuedIn_append, List.append_assoc]
  lost hs := by rw [queuedIn_append, hr.lost hs, hr'.lost (hr.stage.trans hs), List.append_nil]
  callback := by rw [hr'.callback, hr.callback, slotAfter_append]
  outside n hn := (List.mem_append.mp hn).elim (hr.outside n) (hr'.outside n)

/-- **A command** comes into the queue, as long as dispatching is not over. -/
theorem Receives.enqueue (h : SimulatedHost) (c : QueuedCommand) :
    Receives h (h.enqueue c) ((if h.stage = .ended then [] else [c]).map .queued) := by
  unfold SimulatedHost.enqueue
  split
  case isTrue hs => exact ⟨rfl, rfl, rfl, rfl, rfl, (List.append_nil _).symm, fun _ => rfl, rfl, by simp⟩
  case isFalse hs =>
    exact ⟨rfl, rfl, rfl, rfl, rfl, rfl, fun h => absurd h hs, rfl, by simp [Notice.isOutside]⟩

/-- The book or the slot is changed, and the queue is not. -/
theorem Receives.set (h : SimulatedHost) (attempts : UInt64) (accepted : List Record)
    {slot : Option Context} (told : List Notice) (hout : ∀ n ∈ told, n.isOutside) (hq : queuedIn told = [])
    (hslot : slotAfter h.callback told = slot) :
    Receives h { h with attempts := attempts, accepted := accepted, callback := slot } told where
  args := rfl
  dispatchFault := rfl
  noStart := rfl
  stage := rfl
  results := rfl
  queue := by rw [hq, List.append_nil]
  lost _ := hq
  callback := hslot.symm
  outside := hout

/-- **A report** has its record accepted, which is told of, or changes no more than the number of
attempts. -/
theorem Receives.attempt (h : SimulatedHost) (given : Handle) (r : Record) :
    Receives h (h.attempt given r).1 (if (h.attempt given r).2.isOk then [.accepted r] else []) := by
  obtain ⟨n, e, heq⟩ | heq := h.attempt_cases given r
  · rw [heq]
    exact .set h n h.accepted [] (by simp) rfl rfl
  · rw [heq]
    exact .set h _ (h.accepted ++ [r]) [.accepted r] (List.forall_mem_singleton.mpr rfl) rfl rfl

/-- A stopped record takes the callback away. -/
theorem Receives.clear (h : SimulatedHost) : Receives h h.clear [.cleared] :=
  .set h h.attempts h.accepted [.cleared] (List.forall_mem_singleton.mpr rfl) rfl rfl

theorem queuedIn_map (cs : List QueuedCommand) : queuedIn (cs.map .queued) = cs := by
  rw [queuedIn, List.filterMap_map]
  exact List.filterMap_some

/-- The commands that came are those that were told. -/
theorem Receives.arrivals_eq {h h' : SimulatedHost} {told : List Notice} {cs : List QueuedCommand}
    (hr : Receives h h' (told ++ cs.map .queued)) (ht : queuedIn told = []) :
    arrivals h h' = cs.map .queued := by
  rw [arrivals, hr.queue, List.drop_left, queuedIn_append, ht, queuedIn_map]
  rfl

/-- What a command brings. -/
theorem Receives.arrival (h : SimulatedHost) (c : QueuedCommand) :
    Receives h (h.enqueue c) (arrivals h (h.enqueue c)) := by
  have hcommand : Receives h (h.enqueue c)
      ([] ++ (if h.stage = .ended then [] else [c]).map .queued) := Receives.enqueue h c
  rw [hcommand.arrivals_eq rfl]
  exact hcommand

/-- What a registration brings. -/
theorem Receives.register (h : SimulatedHost) (context : Context) :
    Receives h (h.register context).1
      ((if (h.register context).2.isOk then [.registered context] else []) ++
        arrivals h (h.register context).1) := by
  unfold SimulatedHost.register
  split
  case h_1 => exact Receives.arrival h .exit
  case h_2 =>
    have hslot : Receives h { h with callback := some context }
        ([.registered context] ++ [].map .queued) :=
      Receives.set h h.attempts h.accepted _ (List.forall_mem_singleton.mpr rfl) rfl rfl
    rw [hslot.arrivals_eq rfl]
    exact hslot

/-! ## What a step does -/

/-- The step is one that anybody may make. -/
def Step.isOutside : Step → Bool
  | .report .. | .clear | .exit | .register _ | .queue _ => true
  | _ => false

/-- The service that a step dispatches. -/
def Step.dispatched? : Step → Option (String × Context)
  | .dispatch name context => some (name, context)
  | _ => none

theorem Step.dispatched?_outside {s : Step} (hs : s.isOutside) : s.dispatched? = none := by
  cases s with
  | dispatch => cases hs
  | _ => rfl

/-- How far the reports of stopped records have come, with news from outside: one more was accepted, one
takes the callback away, one puts an exit into the queue, or it is something else. -/
inductive Parts (d : Dispatcher) : List Notice → Nat → Nat → Prop where
  | same {news : List Notice} (hnews : ∀ n ∈ news, ¬ n.isStop ∧ ¬ n.isCleared) :
      Parts d news d.clearing d.exiting
  | stops {r : Record} (hr : r.isStopped) : Parts d [.accepted r] (d.clearing + 1) d.exiting
  | clears (hc : d.clearing ≠ 0) : Parts d [.cleared] (d.clearing - 1) (d.exiting + 1)
  | exits (he : d.exiting ≠ 0) :
      Parts d ((if d.host.stage = .ended then [] else [QueuedCommand.exit]).map .queued) d.clearing
        (d.exiting - 1)

/-- **What a step does**, unless it is not possible at present. -/
inductive Does (d : Dispatcher) : Step → Dispatcher → Prop where
  | outside {s : Step} {h : SimulatedHost} {news : List Notice} {clearing exiting : Nat} (hs : s.isOutside)
      (hr : Receives d.host h news) (hp : Parts d news clearing exiting) :
      Does d s ⟨h, d.duty, clearing, exiting, d.log ++ news⟩
  | enter {name : String} {context : Context} (hfault : d.host.dispatchFault = none)
      (hstart : d.host.noStart = false) (hfresh : d.host.stage = .fresh) :
      Does d (.dispatch name context)
        { d with
          host := { d.host with stage := .serving }
          duty := .entering
          log := d.log ++ [.entered context ((name :: d.host.args).map Wide.encode)] }
  | refuse {name : String} {context : Context}
      (hno : ¬ (d.host.dispatchFault = none ∧ d.host.noStart = false ∧ d.host.stage = .fresh)) :
      Does d (.dispatch name context) { d with log := d.log ++ [.refused d.host.unentered] }
  | leave (hd : d.duty = .entering) : Does d (.leave false) { d with duty := .waiting }
  | panic (hd : d.duty = .entering) : Does d (.leave true) (d.finish (.error entryPanicked))
  | take {c : QueuedCommand} {rest : List QueuedCommand} (hd : d.duty = .waiting)
      (hq : d.host.queue = c :: rest) (hc : c ≠ .exit) :
      Does d .take
        { d with host := { d.host with queue := rest }, duty := .holding c, log := d.log ++ [.took c] }
  | takeExit {rest : List QueuedCommand} (hd : d.duty = .waiting)
      (hq : d.host.queue = .exit :: rest) :
      Does d .take
        { d with host := d.host.endDispatch, duty := .off, log := d.log ++ [.took .exit, .cameBack (.ok ())] }
  | look {c : QueuedCommand} (hd : d.duty = .holding c) : Does d .look (d.look c)
  | call {k : SimulatedHost.Callback} (hd : d.duty = .bound k) : Does d .call (d.call k)
  | answer {k : SimulatedHost.Callback} {result : UInt32} (hd : d.duty = .calling k) :
      Does d (.answer result) (d.answer result)
  | idle {s : Step} (hs : s.dispatched? = none) : Does d s d

/-- A report is accepted, or it is not. -/
theorem does_report (d : Dispatcher) (given : Handle) (r : Record) :
    Does d (.report given r) (d.report given r).1 := by
  have hr := Receives.attempt d.host given r
  by_cases hstops : ((d.host.attempt given r).2.isOk && r.isStopped) = true
  · obtain ⟨hok, hstopped⟩ := Bool.and_eq_true_iff.mp hstops
    have hp : Parts d (if (d.host.attempt given r).2.isOk then [.accepted r] else [])
        (if (d.host.attempt given r).2.isOk && r.isStopped then d.clearing + 1 else d.clearing)
        d.exiting := by
      rw [if_pos hok, if_pos hstops]
      exact .stops hstopped
    exact .outside rfl hr hp
  · have hp : Parts d (if (d.host.attempt given r).2.isOk then [.accepted r] else [])
        (if (d.host.attempt given r).2.isOk && r.isStopped then d.clearing + 1 else d.clearing)
        d.exiting := by
      rw [if_neg hstops]
      refine .same fun n hn => ?_
      split at hn
      case isTrue hok =>
        obtain rfl := List.mem_singleton.mp hn
        exact ⟨fun hstopped => hstops (Bool.and_eq_true_iff.mpr ⟨hok, hstopped⟩), Bool.false_ne_true⟩
      case isFalse => cases hn
    exact .outside rfl hr hp

/-- What comes into the queue has nothing to do with stopped records. -/
theorem not_stop_of_queued {cs : List QueuedCommand} :
    ∀ n ∈ cs.map Notice.queued, ¬ n.isStop ∧ ¬ n.isCleared := by
  simp [Notice.isStop, Notice.isCleared]

/-- A dispatch enters the service, or comes back at once. -/
theorem does_dispatch (d : Dispatcher) (name : String) (context : Context) :
    Does d (.dispatch name context) (d.dispatch name context) := by
  by_cases hb : d.host.dispatchFault = none ∧ d.host.noStart = false ∧ d.host.stage = .fresh
  · have hbegin : d.host.beginDispatch name =
        ({ d.host with stage := .serving }, .enters ((name :: d.host.args).map Wide.encode)) := by
      simp [SimulatedHost.beginDispatch, hb]
    rw [dispatch, hbegin]
    exact .enter hb.1 hb.2.1 hb.2.2
  · have hbegin : d.host.beginDispatch name = (d.host, .returns d.host.unentered) := by
      rw [SimulatedHost.beginDispatch, if_neg (by simpa [and_assoc] using hb)]
    rw [dispatch, hbegin]
    exact .refuse hb

/-- The next command is taken, if there is one. -/
theorem does_take {d : Dispatcher} (hd : d.duty = .waiting) : Does d .take d.take := by
  rw [take]
  split
  case h_1 => exact .idle rfl
  case h_2 c rest hq =>
    by_cases hc : c = .exit
    · subst hc
      have hend : finish { d with
            host := { d.host with queue := rest }
            duty := .holding .exit
            log := d.log ++ [.took .exit] } (.ok ()) =
          { d with
            host := d.host.endDispatch
            duty := .off
            log := d.log ++ [.took .exit, .cameBack (.ok ())] } := by
        simp [finish, SimulatedHost.endDispatch]
      simp only [if_true, hend]
      exact .takeExit hd hq
    · simp only [if_neg hc]
      exact .take hd hq hc

/-- **Every step does one of these.** -/
theorem does_step (d : Dispatcher) (s : Step) : Does d s (d.step s) := by
  cases s with
  | report given r => exact d.does_report given r
  | clear =>
    rw [step]
    split
    case isTrue => exact .idle rfl
    case isFalse hc => exact .outside rfl (.clear d.host) (.clears hc)
  | exit =>
    rw [step]
    split
    case isTrue => exact .idle rfl
    case isFalse he =>
      have hr := Receives.enqueue d.host .exit
      rw [exit, (show Receives d.host _ ([] ++ _) from hr).arrivals_eq rfl]
      exact .outside rfl hr (.exits he)
  | register context =>
    refine .outside rfl (.register d.host context) (.same fun n hn => ?_)
    obtain htold | harrived := List.mem_append.mp hn
    · have hregistered : ∀ ok : Bool, n ∈ (if ok then [Notice.registered context] else []) →
          n = .registered context := by simp
      rw [hregistered _ htold]
      exact ⟨Bool.false_ne_true, Bool.false_ne_true⟩
    · exact not_stop_of_queued n harrived
  | queue c =>
    exact .outside rfl (.arrival d.host c) (.same not_stop_of_queued)
  | dispatch name context => exact d.does_dispatch name context
  | leave panicked =>
    rw [step]
    split
    case isTrue hd =>
      cases panicked
      · exact .leave hd
      · exact .panic hd
    case isFalse => exact .idle rfl
  | take =>
    rw [step]
    split
    case isTrue hd => exact does_take hd
    case isFalse => exact .idle rfl
  | look =>
    rw [step]
    split
    case h_1 c hd => exact .look hd
    case h_2 => exact .idle rfl
  | call =>
    rw [step]
    split
    case h_1 k hd => exact .call hd
    case h_2 => exact .idle rfl
  | answer result =>
    rw [step]
    split
    case h_1 k hd => exact .answer hd
    case h_2 => exact .idle rfl

section Does

variable {d d' : Dispatcher} {s : Step}

/-- A log only grows. -/
theorem Does.log_prefix (hd : Does d s d') : d.log <+: d'.log := by
  cases hd with
  | leave | idle => exact List.prefix_rfl
  | _ => exact List.prefix_append _ _

/-- Whoever has the word gives it back to the dispatcher. -/
def Step.givesBack : Step → Bool
  | .leave _ | .answer _ => true
  | _ => false

/-- **While the service or the callback has the word, the dispatcher waits for it.** -/
theorem Does.inside (hd : Does d s d') (hin : d.duty.isInside) (hs : ¬ s.givesBack) :
    d'.duty.isInside ∧ looksIn d'.log = looksIn d.log := by
  cases hd with
  | outside _ hr => exact ⟨hin, by rw [looksIn_append, hr.looks, List.append_nil]⟩
  | enter => exact ⟨rfl, (looksIn_append ..).trans (List.append_nil _)⟩
  | refuse => exact ⟨hin, (looksIn_append ..).trans (List.append_nil _)⟩
  | idle => exact ⟨hin, rfl⟩
  | leave | panic | answer => exact absurd rfl hs
  | take hduty | takeExit hduty | look hduty | call hduty =>
    rw [hduty] at hin
    exact absurd hin Bool.false_ne_true

end Does

/-! ## The queue -/

variable {h : SimulatedHost} {opened : Option (String × Context)} {d : Dispatcher}

/-- **The commands that came are those taken and those still in the queue**, until dispatching is over:
then what was in the queue is lost. -/
structure Conserved (h : SimulatedHost) (d : Dispatcher) : Prop where
  all : d.host.stage ≠ .ended → tookIn d.log ++ d.host.queue = h.queue ++ queuedIn d.log
  some : tookIn d.log ++ d.host.queue <+: h.queue ++ queuedIn d.log

/-- News with which no command comes or is taken. -/
theorem Conserved.quiet (hc : Conserved h d) {d' : Dispatcher} {news : List Notice}
    (hlog : d'.log = d.log ++ news) (hstage : d.host.stage = .ended → d'.host.stage = .ended)
    (hqueue : d'.host.queue = d.host.queue) (hq : queuedIn news = []) (ht : tookIn news = []) :
    Conserved h d' := by
  constructor <;>
    rw [hlog, tookIn_append, ht, queuedIn_append, hq, hqueue, List.append_nil, List.append_nil]
  · exact fun hs => hc.all (mt hstage hs)
  · exact hc.some

/-- The queue is lost. -/
theorem Conserved.lost (hc : Conserved h d) {d' : Dispatcher} {news : List Notice}
    (hlog : d'.log = d.log ++ news) (hend : d'.host = d.host.endDispatch) (hq : queuedIn news = [])
    (ht : tookIn d.log ++ tookIn news <+: tookIn d.log ++ d.host.queue) : Conserved h d' where
  all hs := by
    rw [hend] at hs
    exact absurd rfl hs
  some := by
    have hqueue : d'.host.queue = [] := congrArg SimulatedHost.queue hend
    rw [hlog, hqueue, List.append_nil, tookIn_append, queuedIn_append, hq, List.append_nil]
    exact ht.trans hc.some

/-- **Every step conserves the commands.** -/
theorem Conserved.does (hc : Conserved h d) {s : Step} {d' : Dispatcher} (hd : Does d s d') :
    Conserved h d' := by
  cases hd with
  | @outside s host news clearing exiting hs hr =>
    have htook : tookIn (d.log ++ news) = tookIn d.log := by
      rw [tookIn_append, hr.took, List.append_nil]
    constructor <;> dsimp only <;>
      rw [htook, hr.queue, queuedIn_append, ← List.append_assoc, ← List.append_assoc]
    · rw [hr.stage]
      exact fun hs => congrArg (· ++ _) (hc.all hs)
    · by_cases hs : d.host.stage = .ended
      · rw [hr.lost hs, List.append_nil, List.append_nil]
        exact hc.some
      · rw [hc.all hs]
  | idle => exact hc
  | enter _ _ hfresh =>
    exact hc.quiet rfl (fun hs => absurd (hfresh.symm.trans hs) DispatchStage.noConfusion) rfl rfl rfl
  | refuse => exact hc.quiet rfl id rfl rfl rfl
  | leave => exact ⟨hc.all, hc.some⟩
  | panic => exact hc.lost rfl rfl rfl (by simp [tookIn])
  | @take c rest _ hq =>
    have htook : tookIn (d.log ++ [.took c]) ++ rest = tookIn d.log ++ d.host.queue := by
      rw [tookIn_append, hq, List.append_assoc]
      rfl
    constructor <;> dsimp only <;>
      rw [htook, queuedIn_append, show queuedIn [.took c] = [] from rfl, List.append_nil]
    · exact hc.all
    · exact hc.some
  | @takeExit rest _ hq =>
    refine hc.lost rfl rfl rfl ?_
    rw [hq]
    exact ⟨rest, List.append_assoc ..⟩
  | look | call | answer => exact hc.quiet rfl id rfl rfl rfl

/-! ## The first dispatch -/

/-- **How far the dispatch has come**: its stage, what its thread is at, the commands taken and how it
came back. -/
inductive Phase : DispatchStage → Duty → List QueuedCommand → List (Except HostError Unit) → Prop where
  | fresh : Phase .fresh .off [] []
  | entering : Phase .serving .entering [] []
  | serving {duty : Duty} {took : List QueuedCommand} (hduty : duty.isServing) (hexit : .exit ∉ took) :
      Phase .serving duty took []
  | exited {took : List QueuedCommand} (hexit : .exit ∉ took) :
      Phase .ended .off (took ++ [.exit]) [.ok ()]
  | panicked : Phase .ended .off [] [.error entryPanicked]

namespace Phase

variable {stage : DispatchStage} {duty : Duty} {took came : List QueuedCommand}
  {back : List (Except HostError Unit)}

/-- The commands taken end with the first exit. -/
theorem takes_first (hp : Phase stage duty took back) (hcame : took <+: came) :
    took <+: upToExit came := by
  obtain ⟨rest, rfl⟩ := hcame
  cases hp with
  | fresh | entering | panicked => exact List.nil_prefix
  | serving _ hexit =>
    rw [QueuedCommand.upToExit_append hexit]
    exact List.prefix_append _ _
  | exited hexit =>
    rw [List.append_assoc, QueuedCommand.upToExit_append hexit]
    exact List.prefix_rfl

/-- With dispatching over in the usual way all of them are taken, with an exit at the end. -/
theorem took_eq (hp : Phase stage duty took back) (hcame : took <+: came) :
    back = [.ok ()] ↔ .exit ∈ took ∧ took = upToExit came := by
  obtain ⟨rest, rfl⟩ := hcame
  cases hp with
  | fresh | entering | panicked => simp
  | serving _ hexit => simp [hexit]
  | exited hexit =>
    rw [List.append_assoc, QueuedCommand.upToExit_append hexit]
    simp [upToExit]

theorem of_fresh (hp : Phase stage duty took back) (hs : stage = .fresh) :
    duty = .off ∧ took = [] ∧ back = [] := by
  cases hp with
  | fresh => exact ⟨rfl, rfl, rfl⟩
  | _ => exact absurd hs DispatchStage.noConfusion

theorem of_entering (hp : Phase stage duty took back) (hd : duty = .entering) :
    stage = .serving ∧ took = [] ∧ back = [] := by
  cases hp with
  | entering => exact ⟨rfl, rfl, rfl⟩
  | serving hduty =>
    rw [hd] at hduty
    exact absurd hduty Bool.false_ne_true
  | _ => exact absurd hd Duty.noConfusion

theorem of_serving (hp : Phase stage duty took back) (hd : duty.isServing) :
    stage = .serving ∧ .exit ∉ took ∧ back = [] := by
  cases hp with
  | serving _ hexit => exact ⟨rfl, hexit, rfl⟩
  | _ => exact absurd hd Bool.false_ne_true

theorem of_panicked (hp : Phase stage duty took back) (hb : back = [.error entryPanicked]) :
    took = [] := by
  cases hp with
  | fresh | entering | panicked => rfl
  | serving | exited => simp at hb

theorem of_ended (hp : Phase stage duty took back) (hs : stage = .ended) : duty = .off := by
  cases hp with
  | exited | panicked => rfl
  | _ => exact absurd hs DispatchStage.noConfusion

end Phase

/-- The first dispatch of a history. -/
def firstDispatch (history : List Step) : Option (String × Context) :=
  history.findSome? Step.dispatched?

/-- What is kept of a dispatch, on a host that was fresh and had no fault to dispatch with. -/
structure Ordered (h : SimulatedHost) (opened : Option (String × Context)) (d : Dispatcher) :
    Prop where
  args : d.host.args = h.args
  dispatchFault : d.host.dispatchFault = none
  noStart : d.host.noStart = false
  fresh : d.host.stage = .fresh ↔ opened = none
  entered : enteredIn d.log = opened.toList.map fun p => (p.2, (p.1 :: h.args).map Wide.encode)
  phase : Phase d.host.stage d.duty (tookIn d.log) (cameBackIn d.log)

theorem Ordered.outside (ho : Ordered h opened d) {h' : SimulatedHost} {news : List Notice}
    (hr : Receives d.host h' news) (clearing exiting : Nat) :
    Ordered h opened ⟨h', d.duty, clearing, exiting, d.log ++ news⟩ where
  args := hr.args.trans ho.args
  dispatchFault := hr.dispatchFault.trans ho.dispatchFault
  noStart := hr.noStart.trans ho.noStart
  fresh := by rw [hr.stage, ho.fresh]
  entered := by rw [enteredIn_append, hr.entered, List.append_nil, ho.entered]
  phase := by
    rw [hr.stage, tookIn_append, hr.took, List.append_nil, cameBackIn_append, hr.cameBack,
      List.append_nil]
    exact ho.phase

/-- The phase with news. -/
theorem Phase.tell {log news : List Notice} {stage : DispatchStage} {duty : Duty}
    {took : List QueuedCommand} {back : List (Except HostError Unit)}
    (hp : Phase stage duty took back) (ht : tookIn log ++ tookIn news = took)
    (hb : cameBackIn log ++ cameBackIn news = back) :
    Phase stage duty (tookIn (log ++ news)) (cameBackIn (log ++ news)) := by
  rwa [tookIn_append, ht, cameBackIn_append, hb]

/-- A host that serves was dispatched before. -/
theorem Ordered.begun (ho : Ordered h opened d) (hs : d.host.stage = .serving) :
    opened ≠ none := fun h => by
  rw [ho.fresh.mpr h] at hs
  exact DispatchStage.noConfusion hs

/-- The dispatcher goes on with the commands, and takes no exit. -/
theorem Ordered.serves (ho : Ordered h opened d) (hd : d.duty.isServing) {d' : Dispatcher}
    {news : List Notice} (hlog : d'.log = d.log ++ news) (hargs : d'.host.args = d.host.args)
    (hfault : d'.host.dispatchFault = d.host.dispatchFault)
    (hstart : d'.host.noStart = d.host.noStart) (hstage : d'.host.stage = d.host.stage)
    (hduty : d'.duty.isServing) (hentered : enteredIn news = []) (htook : .exit ∉ tookIn news)
    (hback : cameBackIn news = []) : Ordered h opened d' := by
  obtain ⟨hs, hexit, hnone⟩ := ho.phase.of_serving hd
  have hnow : Phase d.host.stage d'.duty (tookIn d.log ++ tookIn news) [] :=
    hs ▸ .serving hduty fun hmem => (List.mem_append.mp hmem).elim hexit htook
  exact {
    args := hargs.trans ho.args
    dispatchFault := hfault.trans ho.dispatchFault
    noStart := hstart.trans ho.noStart
    fresh := by rw [hstage, ho.fresh]
    entered := by rw [hlog, enteredIn_append, hentered, List.append_nil, ho.entered]
    phase := by
      rw [hlog, hstage]
      exact hnow.tell rfl (by rw [hnone, hback]; rfl) }

/-- **Every step keeps the order**, and remembers the first dispatch. -/
theorem Ordered.does (ho : Ordered h opened d) {s : Step} {d' : Dispatcher} (hd : Does d s d') :
    Ordered h (opened.or s.dispatched?) d' := by
  have hsame : s.dispatched? = none → opened.or s.dispatched? = opened := fun hs => by
    rw [hs, Option.or_none]
  have htold : ∀ {news : List Notice}, enteredIn news = [] → enteredIn (d.log ++ news) =
      opened.toList.map fun p => (p.2, (p.1 :: h.args).map Wide.encode) := fun hn => by
    rw [enteredIn_append, hn, List.append_nil, ho.entered]
  cases hd with
  | outside hs hr =>
    rw [hsame (Step.dispatched?_outside hs)]
    exact ho.outside hr _ _
  | idle hs => rwa [hsame hs]
  | @enter name context _ _ hfresh =>
    obtain rfl := ho.fresh.mp hfresh
    obtain ⟨-, htook, hback⟩ := ho.phase.of_fresh hfresh
    exact { ho with
      fresh := by simp [Step.dispatched?]
      entered := by rw [enteredIn_append, ho.entered, ho.args]; rfl
      phase := Phase.entering.tell (by rw [htook]; rfl) (by rw [hback]; rfl) }
  | @refuse name context hno =>
    have hbegun : d.host.stage ≠ .fresh := fun hf => hno ⟨ho.dispatchFault, ho.noStart, hf⟩
    obtain ⟨p, rfl⟩ := Option.ne_none_iff_exists'.mp (mt ho.fresh.mpr hbegun)
    exact { ho with
      entered := htold rfl
      phase := ho.phase.tell (List.append_nil _) (List.append_nil _) }
  | leave hduty =>
    obtain ⟨hs, htook, hback⟩ := ho.phase.of_entering hduty
    rw [hsame rfl]
    refine { ho with phase := ?_ }
    rw [htook, hback]
    exact hs ▸ .serving rfl List.not_mem_nil
  | panic hduty =>
    obtain ⟨hs, htook, hback⟩ := ho.phase.of_entering hduty
    rw [hsame rfl]
    exact { ho with
      fresh := by simp [finish, SimulatedHost.endDispatch, ho.begun hs]
      entered := htold rfl
      phase := Phase.panicked.tell (by rw [htook]; rfl) (by rw [hback]; rfl) }
  | take hduty _ hc =>
    rw [hsame rfl]
    exact ho.serves (by rw [hduty]; rfl) rfl rfl rfl rfl rfl rfl rfl
      (fun hmem => hc (List.mem_singleton.mp hmem).symm) rfl
  | takeExit hduty hq =>
    obtain ⟨hs, hexit, hback⟩ := ho.phase.of_serving (by rw [hduty]; rfl)
    rw [hsame rfl]
    exact { ho with
      fresh := by simp [SimulatedHost.endDispatch, ho.begun hs]
      entered := htold rfl
      phase := (Phase.exited hexit).tell rfl (by rw [hback]; rfl) }
  | @look c hduty =>
    have hserving : (d.look c).duty.isServing := by
      dsimp only [Dispatcher.look]
      split <;> rfl
    rw [hsame rfl]
    exact ho.serves (by rw [hduty]; rfl) rfl rfl rfl rfl rfl hserving rfl List.not_mem_nil rfl
  | call hduty | answer hduty =>
    rw [hsame rfl]
    exact ho.serves (by rw [hduty]; rfl) rfl rfl rfl rfl rfl rfl rfl List.not_mem_nil rfl

/-! ## Looks for the callback -/

/-- **Each look finds what the log before it says**, given the slot at its beginning. -/
def Found (slot : Option Context) (log : List Notice) : Prop :=
  ∀ before c k later, log = before ++ .looked c k :: later →
    k = (slotAfter slot before).bind (c.asks ·)

/-- A notice in a log with news is in the log, or in the news. -/
theorem notice_split {log news before later : List Notice} {n : Notice}
    (h : log ++ news = before ++ n :: later) :
    (∃ between, log = before ++ n :: between ∧ later = between ++ news) ∨
      ∃ between, before = log ++ between ∧ news = between ++ n :: later := by
  obtain ⟨between, hbefore, hnews⟩ | ⟨between, hlog, hb⟩ := List.append_eq_append_iff.mp h
  · exact .inr ⟨between, hbefore, hnews⟩
  · obtain ⟨rfl, hnews⟩ | ⟨rest, rfl, hlater⟩ := List.cons_eq_append_iff.mp hb
    · rw [List.append_nil] at hlog
      exact .inr ⟨[], by rw [List.append_nil, hlog], hnews⟩
    · exact .inl ⟨rest, hlog, hlater⟩

theorem Found.append {slot : Option Context} {log news : List Notice} (h : Found slot log)
    (hnews : Found (slotAfter slot log) news) : Found slot (log ++ news) := by
  intro before c k later heq
  obtain ⟨between, rfl, -⟩ | ⟨between, rfl, rfl⟩ := notice_split heq
  · exact h before c k between rfl
  · rw [slotAfter_append]
    exact hnews between c k later rfl

theorem found_of_looks {slot : Option Context} {log : List Notice} (h : looksIn log = []) :
    Found slot log := by
  intro before c k later heq
  rw [heq, looksIn_append] at h
  exact absurd (List.append_eq_nil_iff.mp h).2 (List.cons_ne_nil _ _)

theorem found_looked (slot : Option Context) (c : QueuedCommand) :
    Found slot [.looked c (slot.bind (c.asks ·))] := by
  intro before c' k later heq
  obtain ⟨rfl, heq⟩ | ⟨between, -, heq⟩ := List.cons_eq_append_iff.mp heq
  · obtain ⟨⟨rfl, rfl⟩, -⟩ := by simpa using heq
    rfl
  · exact absurd heq (by simp)

/-- Once the callback is gone, it is gone until the next registration. -/
theorem slotAfter_none {log : List Notice} (h : registeredIn log = []) : slotAfter none log = none := by
  induction log with
  | nil => rfl
  | cons n log ih =>
    obtain ⟨hn, hlog⟩ := List.append_eq_nil_iff.mp ((registeredIn_append [n] log).symm.trans h)
    rw [← List.singleton_append, slotAfter_append]
    cases n with
    | registered context => exact absurd hn (List.cons_ne_nil _ _)
    | _ => exact ih hlog

theorem mem_looksIn {log : List Notice} {c : QueuedCommand} {k : Option SimulatedHost.Callback} :
    (c, k) ∈ looksIn log ↔ .looked c k ∈ log := by
  rw [looksIn, List.mem_filterMap]
  constructor
  · rintro ⟨n, hn, heq⟩
    cases n with
    | looked c' k' =>
      obtain ⟨rfl, rfl⟩ := Prod.mk.inj (Option.some.inj heq)
      exact hn
    | _ => exact absurd heq (by simp)
  · intro hn
    exact ⟨_, hn, rfl⟩

/-- So no look finds it meanwhile. -/
theorem Found.nothing {log : List Notice} (h : Found none log) (hr : registeredIn log = []) :
    foundIn log = [] := by
  refine List.filterMap_eq_nil_iff.mpr fun ⟨c, k⟩ hp => ?_
  obtain ⟨before, later, rfl⟩ := List.append_of_mem (mem_looksIn.mp hp)
  rw [registeredIn_append] at hr
  rw [h before c k later rfl, slotAfter_none (List.append_eq_nil_iff.mp hr).1]
  rfl

/-- At no time has the dispatcher found more than one callback that it has not called. -/
def Prompt (log : List Notice) : Prop :=
  ∀ before, before <+: log → (foundIn before).length ≤ (callsIn before).length + 1

theorem Prompt.append {log news : List Notice} (h : Prompt log)
    (hnews : ∀ told, told <+: news →
      (foundIn (log ++ told)).length ≤ (callsIn (log ++ told)).length + 1) : Prompt (log ++ news) := by
  rintro before ⟨rest, heq⟩
  obtain ⟨told, hlog, -⟩ | ⟨told, rfl, hsplit⟩ := List.append_eq_append_iff.mp heq
  · exact h before ⟨told, hlog.symm⟩
  · exact hnews told ⟨rest, hsplit.symm⟩

/-- Without a look nothing is found. -/
theorem Prompt.quiet {log news : List Notice} (h : Prompt log) (hlooks : looksIn news = []) :
    Prompt (log ++ news) := by
  refine h.append fun told htold => ?_
  have hnone : looksIn told = [] := List.eq_nil_of_prefix_nil (hlooks ▸ htold.filterMap _)
  have hlast := h log List.prefix_rfl
  rw [foundIn_append, callsIn_append, foundIn.eq_def told, hnone, List.filterMap_nil, List.append_nil,
    List.length_append]
  omega

/-! ## Calls and results -/

/-- **Every command is answered once, if there is a callback.** -/
structure Answered (h : SimulatedHost) (d : Dispatcher) : Prop where
  /-- Nobody is called before a dispatch. -/
  idle : d.host.stage = .fresh → d.duty = .off
  /-- The callback is the one registered last, unless it was taken away since. -/
  callback : d.host.callback = slotAfter h.callback d.log
  /-- One look for the callback follows each command but an exit. -/
  looks : (looksIn d.log).map (·.1) ++ d.duty.held = (tookIn d.log).filter (· ≠ .exit)
  /-- It finds the callback of that moment, for that command. -/
  found : Found h.callback d.log
  /-- What it found is called once, before the next look. -/
  called : foundIn d.log = callsIn d.log ++ d.duty.uncalled
  prompt : Prompt d.log
  /-- The results are what the callback returned. -/
  results : d.host.results = h.results ++ returnedIn d.log
  /-- Each call returns once before the next. -/
  calls : (callsIn d.log).length = (returnedIn d.log).length + d.duty.unanswered.length

/-- News without any call. -/
theorem Answered.quiet (ha : Answered h d) {d' : Dispatcher} {news : List Notice}
    (hidle : d'.host.stage = .fresh → d'.duty = .off)
    (hlog : d'.log = d.log ++ news) (hcallback : d'.host.callback = slotAfter d.host.callback news)
    (hresults : d'.host.results = d.host.results) (hlooks : looksIn news = []) (hcalls : callsIn news = [])
    (htook : (tookIn news).filter (· ≠ .exit) = []) (hreturned : returnedIn news = [])
    (hheld : d'.duty.held = d.duty.held) (huncalled : d'.duty.uncalled = d.duty.uncalled)
    (hopen : d'.duty.unanswered = d.duty.unanswered) : Answered h d' where
  idle := hidle
  callback := by rw [hcallback, ha.callback, hlog, slotAfter_append]
  looks := by
    rw [hlog, looksIn_append, hlooks, List.append_nil, hheld, ha.looks, tookIn_append,
      List.filter_append, htook, List.append_nil]
  found := hlog ▸ ha.found.append (found_of_looks hlooks)
  called := by
    rw [hlog, foundIn_append, foundIn, foundIn, hlooks, List.filterMap_nil, List.append_nil, callsIn_append,
      hcalls, List.append_nil, huncalled]
    exact ha.called
  prompt := hlog ▸ ha.prompt.quiet hlooks
  results := by rw [hresults, ha.results, hlog, returnedIn_append, hreturned, List.append_nil]
  calls := by
    rw [hlog, callsIn_append, hcalls, hopen, returnedIn_append, hreturned, List.append_nil, List.append_nil]
    exact ha.calls

/-- What a look changes: what it finds is to be called. -/
theorem held_look (d : Dispatcher) (c : QueuedCommand) : (d.look c).duty.held = [] := by
  dsimp only [look]
  split <;> rfl

theorem uncalled_look (d : Dispatcher) (c : QueuedCommand) :
    (d.look c).duty.uncalled = (d.host.callback? c).toList := by
  dsimp only [look]
  split <;> simp [*]

theorem unanswered_look (d : Dispatcher) (c : QueuedCommand) : (d.look c).duty.unanswered = [] := by
  dsimp only [look]
  split <;> rfl

theorem foundIn_looked (c : QueuedCommand) (k : Option SimulatedHost.Callback) :
    foundIn [.looked c k] = k.toList := by
  cases k <;> rfl

/-- Somebody was dispatched, as long as there is something to do. -/
theorem Answered.begun (ha : Answered h d) {duty : Duty} (hd : d.duty = duty) (hne : duty ≠ .off) :
    d.host.stage ≠ .fresh := fun hs => hne (hd.symm.trans (ha.idle hs))

/-- A command is taken, and waits for its look. -/
theorem Answered.take (ha : Answered h d) {c : QueuedCommand} {rest : List QueuedCommand}
    (hd : d.duty = .waiting) (hc : c ≠ .exit) :
    Answered h
      { d with host := { d.host with queue := rest }, duty := .holding c, log := d.log ++ [.took c] } := by
  have hlooks := ha.looks
  have hcalled := ha.called
  have hcalls := ha.calls
  rw [hd] at hlooks hcalled hcalls
  exact {
    idle := fun hs => absurd hs (ha.begun hd Duty.noConfusion)
    callback := by
      rw [slotAfter_append]
      exact ha.callback
    looks := by
      rw [looksIn_append, tookIn_append, List.filter_append, ← hlooks]
      simp [looksIn, tookIn, hc]
    found := ha.found.append (found_of_looks rfl)
    called := by
      rw [foundIn_append, callsIn_append]
      simpa [foundIn, looksIn, callsIn] using hcalled
    prompt := ha.prompt.quiet rfl
    results := by
      rw [returnedIn_append]
      exact ha.results.trans (by simp [returnedIn])
    calls := by
      rw [callsIn_append, returnedIn_append]
      simpa [callsIn, returnedIn] using hcalls }

/-- The look follows, and finds the callback of that moment. -/
theorem Answered.look (ha : Answered h d) {c : QueuedCommand} (hd : d.duty = .holding c) :
    Answered h (d.look c) := by
  have hlooks := ha.looks
  have hcalled := ha.called
  have hcalls := ha.calls
  rw [hd] at hlooks hcalled hcalls
  have hk : d.host.callback? c = (slotAfter h.callback d.log).bind (c.asks ·) := by
    rw [SimulatedHost.callback?_eq, ha.callback]
  have hlog : (d.look c).log = d.log ++ [.looked c (d.host.callback? c)] := rfl
  exact {
    idle := fun hs => absurd hs (ha.begun hd Duty.noConfusion)
    callback := by
      rw [hlog, slotAfter_append]
      exact ha.callback
    looks := by
      rw [hlog, looksIn_append, tookIn_append, List.map_append, held_look]
      exact (List.append_nil _).trans (hlooks.trans (by simp [tookIn]))
    found := by
      rw [hlog, hk]
      exact ha.found.append (found_looked _ c)
    called := by
      rw [hlog, foundIn_append, foundIn_looked, callsIn_append, uncalled_look]
      simpa [callsIn] using hcalled
    prompt := by
      -- all that was found before has been called
      refine ha.prompt.append fun told htold => ?_
      have hlength : (foundIn d.log).length = (callsIn d.log).length :=
        congrArg List.length (hcalled.trans (List.append_nil _))
      have hone : (foundIn told).length ≤ 1 := by
        refine (htold.filterMap _ |>.filterMap _).length_le.trans ?_
        change (foundIn [.looked c (d.host.callback? c)]).length ≤ 1
        rw [foundIn_looked]
        cases d.host.callback? c <;> simp
      rw [foundIn_append, callsIn_append, List.length_append, List.length_append]
      omega
    results := by
      rw [hlog, returnedIn_append]
      exact ha.results.trans (by simp [returnedIn])
    calls := by
      rw [hlog, callsIn_append, returnedIn_append, unanswered_look]
      simpa [callsIn, returnedIn] using hcalls }

/-- What it found is called. -/
theorem Answered.call (ha : Answered h d) {k : SimulatedHost.Callback} (hd : d.duty = .bound k) :
    Answered h (d.call k) := by
  have hlooks := ha.looks
  have hcalled := ha.called
  have hcalls := ha.calls
  rw [hd] at hlooks hcalled hcalls
  have hlog : (d.call k).log = d.log ++ [.called k] := rfl
  exact {
    idle := fun hs => absurd hs (ha.begun hd Duty.noConfusion)
    callback := by
      rw [hlog, slotAfter_append]
      exact ha.callback
    looks := by
      rw [hlog, looksIn_append, tookIn_append]
      simpa [looksIn, tookIn, Dispatcher.call] using hlooks
    found := ha.found.append (found_of_looks rfl)
    called := by
      rw [hlog, foundIn_append, callsIn_append]
      simpa [foundIn, looksIn, callsIn, Dispatcher.call] using hcalled
    prompt := ha.prompt.quiet rfl
    results := by
      rw [hlog, returnedIn_append]
      exact ha.results.trans (by simp [returnedIn])
    calls := by
      rw [hlog, callsIn_append, returnedIn_append]
      simpa [callsIn, returnedIn, Dispatcher.call] using hcalls }

/-- The call returns, and leaves a result. -/
theorem Answered.answer (ha : Answered h d) {k : SimulatedHost.Callback} (hd : d.duty = .calling k)
    (result : UInt32) : Answered h (d.answer result) := by
  have hlooks := ha.looks
  have hcalled := ha.called
  have hcalls := ha.calls
  rw [hd] at hlooks hcalled hcalls
  have hlog : (d.answer result).log = d.log ++ [.returned result] := rfl
  exact {
    idle := fun hs => absurd hs (ha.begun hd Duty.noConfusion)
    callback := by
      rw [hlog, slotAfter_append]
      exact ha.callback
    looks := by
      rw [hlog, looksIn_append, tookIn_append]
      simpa [looksIn, tookIn, Dispatcher.answer] using hlooks
    found := ha.found.append (found_of_looks rfl)
    called := by
      rw [hlog, foundIn_append, callsIn_append]
      simpa [foundIn, looksIn, callsIn, Dispatcher.answer] using hcalled
    prompt := ha.prompt.quiet rfl
    results := by
      rw [hlog, returnedIn_append, ← List.append_assoc, ← ha.results]
      rfl
    calls := by
      rw [hlog, callsIn_append, returnedIn_append]
      simpa [callsIn, returnedIn, Dispatcher.answer] using hcalls }

/-- **Every step keeps the callback and its results.** -/
theorem Answered.does (ha : Answered h d) {s : Step} {d' : Dispatcher} (hd : Does d s d') :
    Answered h d' := by
  cases hd with
  | outside _ hr =>
    exact ha.quiet (fun hs => ha.idle (hr.stage.symm.trans hs)) rfl hr.callback hr.results hr.looks
      hr.calls (by rw [hr.took]; rfl) hr.returned rfl rfl rfl
  | idle => exact ha
  | enter _ _ hfresh =>
    have hduty := ha.idle hfresh
    exact ha.quiet DispatchStage.noConfusion rfl rfl rfl rfl rfl rfl rfl (by rw [hduty]; rfl)
      (by rw [hduty]; rfl) (by rw [hduty]; rfl)
  | refuse => exact ha.quiet ha.idle rfl rfl rfl rfl rfl rfl rfl rfl rfl rfl
  | leave hduty =>
    exact ha.quiet (fun hs => absurd hs (ha.begun hduty Duty.noConfusion)) (List.append_nil _).symm rfl
      rfl rfl rfl rfl rfl (by rw [hduty]; rfl) (by rw [hduty]; rfl) (by rw [hduty]; rfl)
  | panic hduty | takeExit hduty =>
    exact ha.quiet (fun _ => rfl) rfl rfl rfl rfl rfl rfl rfl (by rw [hduty]; rfl) (by rw [hduty]; rfl)
      (by rw [hduty]; rfl)
  | take hduty _ hc => exact ha.take hduty hc
  | look hduty => exact ha.look hduty
  | call hduty => exact ha.call hduty
  | answer hduty => exact ha.answer hduty _

/-! ## Stopped records -/

/-- What follows a stopped record: its report has yet to take the callback away, or one did since; and then
it has yet to put an exit into the queue, or one came since, unless dispatching is over. -/
structure Bringing (d : Dispatcher) (later : List Notice) : Prop where
  cleared : d.clearing ≠ 0 ∨ .cleared ∈ later
  exit : d.clearing ≠ 0 ∨ d.exiting ≠ 0 ∨ .exit ∈ queuedIn later ∨ d.host.stage = .ended

/-- **Each stopped record that was accepted takes the callback away and brings an exit**, and nothing else
takes it away. -/
structure Stopping (d : Dispatcher) : Prop where
  brings : ∀ before r later, d.log = before ++ .accepted r :: later → r.isStopped → Bringing d later
  once : d.log.countP Notice.isStop = d.log.countP Notice.isCleared + d.clearing

/-- What follows goes on to, with news. -/
theorem Bringing.tell {later : List Notice} (hb : Bringing d later) {d' : Dispatcher} (news : List Notice)
    (hclearing : d'.clearing = d.clearing) (hexiting : d'.exiting = d.exiting)
    (hended : d.host.stage = .ended → d'.host.stage = .ended) : Bringing d' (later ++ news) where
  cleared := by
    rw [hclearing]
    exact hb.cleared.imp_right (List.mem_append_left _)
  exit := by
    rw [hclearing, hexiting, queuedIn_append]
    exact hb.exit.imp_right (.imp_right (.imp (List.mem_append_left _) hended))

/-- News that accept no stopped record. -/
theorem Stopping.unstopped (hs : Stopping d) {d' : Dispatcher} {news : List Notice}
    (hlog : d'.log = d.log ++ news) (hnews : ∀ n ∈ news, ¬ n.isStop)
    (hcleared : news.countP Notice.isCleared + d'.clearing = d.clearing)
    (hkept : ∀ later, Bringing d later → Bringing d' (later ++ news)) : Stopping d' where
  brings before r later heq hr := by
    obtain ⟨between, hbefore, rfl⟩ | ⟨between, -, rfl⟩ := notice_split (hlog.symm.trans heq)
    · exact hkept between (hs.brings _ _ _ hbefore hr)
    · exact absurd hr (hnews _ (List.mem_append_right _ List.mem_cons_self))
  once := by
    have honce := hs.once
    rw [hlog, List.countP_append, List.countP_append, List.countP_eq_zero.mpr hnews]
    omega

/-- News that have nothing to do with stopped records. -/
theorem Stopping.quiet (hs : Stopping d) {d' : Dispatcher} {news : List Notice}
    (hlog : d'.log = d.log ++ news) (hnews : ∀ n ∈ news, ¬ n.isStop ∧ ¬ n.isCleared)
    (hclearing : d'.clearing = d.clearing) (hexiting : d'.exiting = d.exiting)
    (hended : d.host.stage = .ended → d'.host.stage = .ended) : Stopping d' := by
  refine hs.unstopped hlog (fun n hn => (hnews n hn).1) ?_ fun _ hb =>
    hb.tell news hclearing hexiting hended
  rw [List.countP_eq_zero.mpr fun n hn => (hnews n hn).2, Nat.zero_add, hclearing]

/-- **Every step keeps what is to follow.** -/
theorem Stopping.does (hs : Stopping d) {s : Step} {d' : Dispatcher} (hd : Does d s d') : Stopping d' := by
  cases hd with
  | @outside s host news clearing exiting _ hr hp =>
    cases hp with
    | same hnews => exact hs.quiet rfl hnews rfl rfl hr.stage.trans
    | @stops r hstopped =>
      refine ⟨fun _ _ _ _ _ => ⟨.inl (Nat.succ_ne_zero _), .inl (Nat.succ_ne_zero _)⟩, ?_⟩
      have hstop : [Notice.accepted r].countP Notice.isStop = 1 :=
        List.countP_eq_length.mpr (List.forall_mem_singleton.mpr hstopped)
      dsimp only
      rw [List.countP_append, List.countP_append, hstop, hs.once]
      rfl
    | clears hc =>
      refine hs.unstopped rfl (by simp [Notice.isStop]) ?_ fun later _ => ⟨.inr ?_, .inr (.inl ?_)⟩
      · change 1 + (d.clearing - 1) = d.clearing
        omega
      · exact List.mem_append_right _ (List.mem_singleton_self _)
      · exact Nat.succ_ne_zero _
    | exits =>
      refine hs.unstopped rfl (fun n hn => (not_stop_of_queued n hn).1) ?_ fun later hb =>
        ⟨hb.cleared.imp_right (List.mem_append_left _), .inr (.inr ?_)⟩
      · rw [List.countP_eq_zero.mpr fun n hn => (not_stop_of_queued n hn).2, Nat.zero_add]
      by_cases hended : d.host.stage = .ended
      · exact .inr (hr.stage.trans hended)
      · rw [if_neg hended, queuedIn_append, queuedIn_map]
        exact .inl (List.mem_append_right _ (List.mem_singleton_self _))
  | idle => exact hs
  | enter _ _ hfresh =>
    refine hs.quiet rfl (by simp [Notice.isStop, Notice.isCleared]) rfl rfl fun hended => ?_
    exact absurd (hfresh.symm.trans hended) DispatchStage.noConfusion
  | leave => exact hs.quiet (List.append_nil _).symm (by simp) rfl rfl id
  | panic | takeExit =>
    exact hs.quiet rfl (by simp [Notice.isStop, Notice.isCleared]) rfl rfl fun _ => rfl
  | refuse | take | look | call | answer =>
    exact hs.quiet rfl (by simp [Notice.isStop, Notice.isCleared]) rfl rfl id

/-! ## What a whole history keeps -/

/-- What each step keeps, every history keeps. -/
theorem kept_after {P : Dispatcher → Prop}
    (hstep : ∀ {d s d'}, P d → Does d s d' → P d') (hd : P d) (history : List Step) :
    P (d.after history) := by
  induction history generalizing d with
  | nil => exact hd
  | cons s history ih => exact ih (hstep hd (does_step d s))

/-- What was told stays told. -/
theorem log_prefix_after (d : Dispatcher) (history : List Step) : d.log <+: (d.after history).log :=
  kept_after (P := fun d' => d.log <+: d'.log) (fun hp hd => hp.trans hd.log_prefix) List.prefix_rfl history

theorem Conserved.after (hc : Conserved h d) (history : List Step) : Conserved h (d.after history) :=
  kept_after (fun hc hd => hc.does hd) hc history

theorem Answered.after (ha : Answered h d) (history : List Step) : Answered h (d.after history) :=
  kept_after (fun ha hd => ha.does hd) ha history

theorem Stopping.after (hs : Stopping d) (history : List Step) : Stopping (d.after history) :=
  kept_after (P := Stopping) (fun hs hd => hs.does hd) hs history

theorem conserved_idle (h : SimulatedHost) : Conserved h (idle h) where
  all _ := (List.append_nil _).symm
  some := (List.append_nil h.queue).symm ▸ List.prefix_rfl

theorem answered_idle (h : SimulatedHost) : Answered h (idle h) where
  idle _ := rfl
  callback := rfl
  looks := rfl
  found := found_of_looks rfl
  called := rfl
  prompt := fun before hb => by
    obtain rfl := List.eq_nil_of_prefix_nil hb
    exact Nat.zero_le 1
  results := (List.append_nil _).symm
  calls := rfl

theorem stopping_idle (h : SimulatedHost) : Stopping (idle h) where
  brings _ _ _ heq := by simp [idle] at heq
  once := rfl

theorem firstDispatch_cons (s : Step) (history : List Step) :
    firstDispatch (s :: history) = s.dispatched?.or (firstDispatch history) := by
  rw [firstDispatch, List.findSome?_cons]
  cases s.dispatched? <;> rfl

theorem ordered_idle (hfault : h.dispatchFault = none) (hstart : h.noStart = false)
    (hfresh : h.stage = .fresh) : Ordered h none (idle h) where
  args := rfl
  dispatchFault := hfault
  noStart := hstart
  fresh := iff_of_true hfresh rfl
  entered := rfl
  phase := by
    change Phase h.stage .off [] []
    exact hfresh ▸ .fresh

/-- **The order of a dispatch is kept along every history**, with its first dispatch. -/
theorem Ordered.after (ho : Ordered h opened d) (history : List Step) :
    Ordered h (opened.or (firstDispatch history)) (d.after history) := by
  induction history generalizing opened d with
  | nil => simpa [firstDispatch] using ho
  | cons s history ih =>
    rw [firstDispatch_cons, ← Option.or_assoc]
    exact ih (ho.does (does_step d s))

end Dispatcher

end Steward
