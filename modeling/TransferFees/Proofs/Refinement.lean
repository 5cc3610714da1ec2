import Mathlib.Data.List.Forall2
import TransferFees.Proofs.Changes
import TransferFees.Proofs.Sessions

/-!
# The service and the state in memory

A fee state in memory takes commands one after the other (`FeeState.apply`). The service keeps no
state in memory: every step loads the state from its rows, checks it, works on it, writes the change
back and forgets it. Nobody can tell the two apart. From the creation of the state on, and after any
commands, both answer alike and the rows are those of the state in memory
(`service_refines_state`).

The simulation relation is equality: the stored tables are `s.tables`, where `s` is the state in
memory. `step_answered` is the diagram for one command.
-/

namespace TransferFees

/-- The step of the service that does what a command does in memory. -/
def Command.step : Command → Step
  | .fee t => .fee t
  | .setPercent caller text => .setPercent caller text
  | .percentText => .percentText
  | .listTokens => .listTokens
  | .addToken id => .addToken id
  | .removeToken id => .removeToken id

/-- The replies to commands in memory, each with the state after it. -/
def FeeState.trace : FeeState → List Command → List (Except FeeError Reply × FeeState)
  | _, [] => []
  | s, c :: rest => s.apply c :: trace (s.apply c).2 rest

/-- How the service answers where the state in memory gives a reply and is `next` after it. The
service tells a new percent as a text, and the tokens where they have changed. -/
inductive Answered (next : FeeState) : Except FeeError Reply → Except FeeError Answer → Prop where
  | fee (value : Int) : Answered next (.ok (.fee value)) (.ok (.fee value))
  | percent {text : String} (h : next.percentText = .ok text) :
      Answered next (.ok (.percent next.percent)) (.ok (.text text))
  | text (s : String) : Answered next (.ok (.text s)) (.ok (.text s))
  | tokens (ids : List String) : Answered next (.ok (.tokens ids)) (.ok (.tokens ids))
  | changed : Answered next (.ok .done) (.ok (.tokens next.tokens.toList))
  | failed (e : FeeError) : Answered next (.error e) (.error e)

/-- A reply and the state in memory after it, beside an answer and what is stored after it. -/
def Alike (memory : Except FeeError Reply × FeeState)
    (stored : Except FeeError Answer × Storage) : Prop :=
  Answered memory.2 memory.1 stored.1 ∧ stored.2 = .ready memory.2.tables

section
variable {s : FeeState}

/-- A question loads the state and is answered from it. -/
theorem run_question {step : Step} {f : FeeState → Work Answer} {r : Except FeeError Answer}
    (hs : s.Valid) (hstep : step.work = Service.loadState >>= f) (hf : ∀ d, f s d = (r, d)) :
    (step.run (.ready s.tables)).result = r ∧
      (step.run (.ready s.tables)).storage = .ready s.tables := by
  have hwork : (Service.loadState >>= f) ⟨.ready s.tables, []⟩ = (r, ⟨.ready s.tables, []⟩) := by
    rw [Work.bind_of_ok (Service.loadState_of_valid hs), hf]
  rw [Step.run, hstep, Work.commit_of_unchanged hwork]
  exact ⟨rfl, rfl⟩

/-- A step that cannot get past a refused change fails with its error. -/
theorem run_refused {step : Step} {f : FeeState → Work Answer} {c : Change} {e : FeeError}
    (hs : s.Valid) (hstep : step.work = Service.change c >>= f) (h : c.plan (some s) = .error e) :
    (step.run (.ready s.tables)).result = .error e ∧
      (step.run (.ready s.tables)).storage = .ready s.tables := by
  obtain ⟨s', hchange⟩ := Service.change_of_plan_error (l := []) hs h
  rw [Step.run, hstep, Work.commit_of_error (Work.bind_of_error hchange)]
  exact ⟨rfl, rfl⟩

/-- A step that makes a change answers from the state after it. -/
theorem run_planned {step : Step} {f : FeeState → Work Answer} {c : Change} {plan : Plan}
    {a : Answer} (hs : s.Valid) (hstep : step.work = Service.change c >>= f)
    (h : c.plan (some s) = .ok plan) (hf : ∀ d, f plan.next d = (.ok a, d)) :
    (step.run (.ready s.tables)).result = .ok a ∧
      (step.run (.ready s.tables)).storage = .ready plan.next.tables := by
  have hchange := Service.change_of_plan_ok (l := []) hs h
  have hwork : (Service.change c >>= f) ⟨.ready s.tables, []⟩ =
      (.ok a, ⟨.ready plan.next.tables, [] ++ [.event plan.event]⟩) := by
    rw [Work.bind_of_ok hchange, hf]
  rw [Step.run, hstep, Work.commit_of_ok hwork]
  exact ⟨rfl, rfl⟩

/-- What is the same for all commands that change the state: in memory the change is `next?`, the
service plans it on what it has loaded, and it answers by `f` from the state after it. -/
theorem change_answered {command : Command} {c : Change} {f : FeeState → Work Answer}
    {next? : Except FeeError FeeState} {event : FeeState → Event} {reply : FeeState → Reply}
    (hs : s.Valid)
    (happly : s.apply command =
      match next? with
      | .ok next => (.ok (reply next), next)
      | .error e => (.error e, s))
    (hstep : command.step.work = Service.change c >>= f)
    (hplan : c.plan (some s) = next?.map fun next => ⟨event next, next⟩)
    (hanswer : ∀ next : FeeState, next.Valid →
      ∃ a, (∀ d, f next d = (.ok a, d)) ∧ Answered next (.ok (reply next)) (.ok a)) :
    Alike (s.apply command) ((command.step.run (.ready s.tables)).result,
      (command.step.run (.ready s.tables)).storage) ∧ (s.apply command).2.Valid := by
  rw [happly]
  cases next? with
  | error e =>
      obtain ⟨hresult, hstorage⟩ := run_refused hs hstep hplan
      rw [hresult, hstorage]
      exact ⟨⟨.failed e, rfl⟩, hs⟩
  | ok next =>
      have hvalid : next.Valid := (Change.planned hplan).valid hs
      obtain ⟨a, hf, ha⟩ := hanswer next hvalid
      obtain ⟨hresult, hstorage⟩ := run_planned hs hstep hplan hf
      rw [hresult, hstorage]
      exact ⟨⟨ha, rfl⟩, hvalid⟩

/-- **One command.** The service answers as the state in memory does and stores the same. -/
theorem step_answered (hs : s.Valid) (c : Command) :
    Alike (s.apply c) ((c.step.run (.ready s.tables)).result,
      (c.step.run (.ready s.tables)).storage) ∧ (s.apply c).2.Valid := by
  cases c with
  | fee t =>
      have hstep : (Step.fee t).work =
          Service.loadState >>= fun s => do return .fee (← Work.ofExcept (s.fee t)) := by
        rw [Step.work, Service.fee, bind_assoc]
      obtain ⟨hresult, hstorage⟩ := run_question (r := (s.fee t).map .fee) hs hstep fun d => by
        rw [Work.bind_pure_apply, Work.ofExcept_apply]
      rw [Command.step, hresult, hstorage, FeeState.apply]
      refine ⟨⟨?_, rfl⟩, hs⟩
      cases s.fee t with
      | ok value => exact .fee value
      | error e => exact .failed e
  | percentText =>
      have hstep : Step.percentText.work =
          Service.loadState >>= fun s => do return .text (← Work.ofExcept s.percentText) := by
        rw [Step.work, Service.percentText, bind_assoc]
      obtain ⟨hresult, hstorage⟩ := run_question (r := s.percentText.map .text) hs hstep fun d => by
        rw [Work.bind_pure_apply, Work.ofExcept_apply]
      rw [Command.step, hresult, hstorage, FeeState.apply]
      refine ⟨⟨?_, rfl⟩, hs⟩
      cases s.percentText with
      | ok text => exact .text text
      | error e => exact .failed e
  | listTokens =>
      have hstep : Step.listTokens.work =
          Service.loadState >>= fun s => pure (.tokens s.tokens.toList) := by
        rw [Step.work, Service.listTokens, bind_assoc]
        rfl
      obtain ⟨hresult, hstorage⟩ := run_question hs hstep fun d => rfl
      rw [Command.step, hresult, hstorage]
      exact ⟨⟨.tokens _, rfl⟩, hs⟩
  | setPercent caller text =>
      have hstep : (Step.setPercent caller text).work =
          Service.change (.setPercent caller text) >>= fun next => do
            return .text (← Work.ofExcept next.percentText) := by
        rw [Step.work, Service.setPercent, bind_assoc]
      refine change_answered hs rfl hstep (Change.plan_setPercent s caller text) ?_
      intro next hnext
      obtain ⟨written, hwritten⟩ := hnext.percentText
      refine ⟨.text written, fun d => ?_, .percent hwritten⟩
      rw [Work.bind_pure_apply, Work.ofExcept_apply, hwritten]
      rfl
  | addToken id =>
      have hstep : (Step.addToken id).work =
          Service.change (.addToken id) >>= fun next => pure (.tokens next.tokens.toList) := by
        rw [Step.work, Service.addToken, bind_assoc]
        rfl
      refine change_answered hs rfl hstep (Change.plan_addToken s id) ?_
      exact fun next _ => ⟨_, fun d => rfl, .changed⟩
  | removeToken id =>
      have hstep : (Step.removeToken id).work =
          Service.change (.removeToken id) >>= fun next => pure (.tokens next.tokens.toList) := by
        rw [Step.work, Service.removeToken, bind_assoc]
        rfl
      refine change_answered hs rfl hstep (Change.plan_removeToken s id) ?_
      exact fun next _ => ⟨_, fun d => rfl, .changed⟩

end

/-- The induction is on the commands; that the state in memory stays valid carries it. -/
theorem trace_alike {s : FeeState} (hs : s.Valid) (commands : List Command) :
    List.Forall₂ Alike (s.trace commands)
      (Step.runEach (commands.map Command.step) (.ready s.tables)) := by
  induction commands generalizing s with
  | nil => exact .nil
  | cons c rest ih =>
      obtain ⟨halike, hvalid⟩ := step_answered hs c
      rw [FeeState.trace, List.map_cons, Step.runEach]
      have hstored : (c.step.run (.ready s.tables)).storage = .ready (s.apply c).2.tables :=
        halike.2
      refine .cons halike ?_
      rw [hstored]
      exact ih hvalid

/-- **The service cannot be told from the state in memory.** On fresh tables it creates the state
that is made in memory, or fails with the same error; and whatever commands follow, every answer
and everything stored is as it is in memory. -/
theorem service_refines_state (caller : String) (tokens : List String) (standard : Option String)
    (commands : List Command) :
    let first := (Step.establish caller tokens standard).run (.ready .fresh)
    match FeeState.start caller tokens standard with
    | .error e => first.result = .error e ∧ first.storage = .ready .fresh
    | .ok s => first.result = .ok (.state s) ∧ first.storage = .ready s.tables ∧
        List.Forall₂ Alike (s.trace commands)
          (Step.runEach (commands.map Command.step) first.storage) := by
  intro first
  have hfirst : first = (Service.change (.establish caller tokens standard) >>= fun s =>
      pure (.state s)).commit (.ready .fresh) := rfl
  have houtcome := Change.outcome_fresh caller tokens standard
  cases hstart : FeeState.start caller tokens standard with
  | error e =>
      rw [hstart] at houtcome
      obtain ⟨s', hchange⟩ := Service.change_error (l := []) houtcome
      rw [hfirst, Work.commit_of_error (Work.bind_of_error hchange)]
      exact ⟨rfl, rfl⟩
  | ok s =>
      rw [hstart] at houtcome
      have hchange := Service.change_ok (l := []) houtcome
      have hwork : (Service.change (.establish caller tokens standard) >>= fun s =>
          (pure (.state s) : Work Answer)) ⟨.ready .fresh, []⟩ =
          (.ok (.state s), ⟨.ready s.tables, [] ++ [.event (.initialized s)]⟩) :=
        Work.bind_of_ok hchange
      rw [hfirst, Work.commit_of_ok hwork]
      exact ⟨rfl, rfl, trace_alike (FeeState.valid_of_start hstart).1 commands⟩

end TransferFees
