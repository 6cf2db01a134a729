import Coordination.Proofs.Dispatch.Halves

namespace Coordination

-- What a handler does, or the application that the first events come from, step by step.
inductive Conduct (η σ : Type)
  -- It returns, or it panics.
  | finish (outcome : Outcome)
  -- It has the registry, or what the handlers share besides, to itself for a moment. How it goes on
  -- depends on what it has found there.
  | access (change : Registry η → σ → Registry η × σ) (next : Registry η → σ → Conduct η σ)
  -- It dispatches an event, and is told whether there was a handler.
  | dispatch (event : Event) (next : Bool → Conduct η σ)

-- A call of the dispatcher that has returned.
structure Verdict (η : Type) where
  -- Calls are numbered as they begin.
  number : Nat
  event : Event
  -- The handler that was called, and how it ended.
  ended : Option (Invocation η × Outcome)
  answer : Bool
  -- The counters when the call was counted.
  before : Counters
  after : Counters

-- A handler under way, and how its caller goes on when it is told the answer.
structure Frame (η σ : Type) where
  number : Nat
  invocation : Invocation η
  next : Bool → Conduct η σ

structure Nesting (η σ : Type) where
  dispatcher : Dispatcher η
  shared : σ
  -- What the innermost handler is about to do, or the application if there is none.
  current : Conduct η σ
  -- The handlers under way, the innermost first.
  running : List (Frame η σ)
  -- How many calls have begun.
  calls : Nat
  -- The calls that have returned, in the order in which they did.
  verdicts : List (Verdict η)

namespace Nesting

variable {η σ : Type}

abbrev counters (s : Nesting η σ) : Counters :=
  s.dispatcher.counters

def initial (d : Dispatcher η) (shared : σ) (main : Conduct η σ) : Nesting η σ :=
  ⟨d, shared, main, [], 0, []⟩

def access (change : Registry η → σ → Registry η × σ) (next : Registry η → σ → Conduct η σ)
    (s : Nesting η σ) : Nesting η σ :=
  let r := s.dispatcher.registry
  { s with
    dispatcher.registry := (change r s.shared).1
    shared  := (change r s.shared).2
    current := next r s.shared }

def dispatch (conduct : Invocation η → Conduct η σ) (event : Event) (next : Bool → Conduct η σ)
    (s : Nesting η σ) : Nesting η σ :=
  match s.dispatcher.start event with
  | (some i, d) =>
    { s with
      dispatcher := d
      current    := conduct i
      running    := ⟨s.calls, i, next⟩ :: s.running
      calls      := s.calls + 1 }
  | (none, d) =>
    { s with
      dispatcher := d
      current    := next false
      calls      := s.calls + 1
      verdicts   := s.verdicts ++ [⟨s.calls, event, none, false, s.counters, d.counters⟩] }

def finish (outcome : Outcome) (s : Nesting η σ) : Nesting η σ :=
  match s.running with
  | [] => s
  | f :: rest =>
    let i := f.invocation
    let d := s.dispatcher.finish i outcome
    { s with
      dispatcher := d
      current    := f.next true
      running    := rest
      verdicts   := s.verdicts ++
        [⟨f.number, i.event, some (i, outcome), true, s.counters, d.counters⟩] }

-- How the handler of the innermost call ends, if each call has its handler end as `ends` says
-- instead of as the handler itself would.
def outcome (ends : Nat → Outcome → Outcome) (own : Outcome) (s : Nesting η σ) : Outcome :=
  match s.running with
  | [] => own
  | f :: _ => ends f.number own

def step (conduct : Invocation η → Conduct η σ) (ends : Nat → Outcome → Outcome)
    (s : Nesting η σ) : Nesting η σ :=
  match s.current with
  | .access change next => s.access change next
  | .dispatch event next => s.dispatch conduct event next
  | .finish own => s.finish (s.outcome ends own)

def run (conduct : Invocation η → Conduct η σ) (ends : Nat → Outcome → Outcome) :
    Nat → Nesting η σ → Nesting η σ
  | 0, s => s
  | n + 1, s => run conduct ends n (s.step conduct ends)

end Nesting

namespace Counters

-- The sums over the labels of each counter.
def dispatchedSum (c : Counters) : Nat :=
  c.dispatchedCompletion + c.dispatchedWatch + c.dispatchedSession

def orphanSum (c : Counters) : Nat :=
  c.orphanCompletion + c.orphanWatch

def failureSum (c : Counters) : Nat :=
  c.failureError + c.failurePanic

def rearmSum (c : Counters) : Nat :=
  c.rearmWatch + c.rearmCompletion

def callSum (c : Counters) : Nat :=
  c.dispatchedSum + c.orphanSum + c.failureSum

-- The counters without those that depend on how handlers end.
def unended (c : Counters) : Counters :=
  { c with
    dispatchedCompletion := 0
    dispatchedWatch      := 0
    dispatchedSession    := 0
    failureError         := 0
    failurePanic         := 0 }

end Counters

namespace Verdict

variable {η : Type}

-- By how much a reading of the counters went up when the call was counted.
def growth (v : Verdict η) (reading : Counters → Nat) : Int :=
  reading v.after - reading v.before

-- A session notice was handed to the watcher of a request or to a pending completion.
def isNotice (v : Verdict η) : Bool :=
  v.event.isSession && v.ended.any fun (i, _) => i.slot.isSingleUse

-- What can be seen of a call without the counters and without how its handler ended.
def visible (v : Verdict η) : Nat × Event × Option (Invocation η) × Bool :=
  (v.number, v.event, v.ended.map Prod.fst, v.answer)

-- One of the three counters goes up by one, an orphan is what is answered with `false`, and the
-- counter of rearmed entries goes up by one for a session notice that was handed to an entry.
structure Counted (v : Verdict η) : Prop where
  once : (v.growth Counters.dispatchedSum, v.growth Counters.orphanSum,
      v.growth Counters.failureSum) =
    match v.ended with
    | some (_, .ok) => (1, 0, 0)
    | none => (0, 1, 0)
    | some _ => (0, 0, 1)
  told : v.answer = false ↔ v.growth Counters.orphanSum = 1
  rearmed : v.growth Counters.rearmSum = if v.isNotice then 1 else 0

-- The counters go from `c` to `c'` by these calls and by nothing else.
def Linked : Counters → List (Verdict η) → Counters → Prop
  | c, [], c' => c = c'
  | c, v :: vs, c' => v.before = c ∧ Linked v.after vs c'

end Verdict

namespace Dispatcher

variable {η : Type} {d : Dispatcher η} {i : Invocation η}

-- The dispatcher without the counters that depend on how handlers end.
def unended (d : Dispatcher η) : Dispatcher η :=
  { d with counters := d.counters.unended }

theorem unended_inj {d' : Dispatcher η} (h : d'.unended = d.unended) :
    d'.registry = d.registry ∧ d'.counters.unended = d.counters.unended :=
  Dispatcher.mk.inj h

theorem start_counters (event : Event) :
    (d.start event).2.counters =
      if (d.start event).1.isSome then d.counters else d.counters.orphan event := by
  unfold start
  split <;> rfl

theorem start_unended (event : Event) :
    d.unended.start event = ((d.start event).1, (d.start event).2.unended) := by
  rcases h : route event d.registry with ⟨_ | _, _⟩ <;> simp only [start, unended, h]
  cases event <;> rfl

-- Of the entries that a session notice can be handed to, only the global watcher is not put back.
theorem rearms_of_start {event : Event} (h : (d.start event).1 = some i) :
    i.rearms i.slot = (event.isSession && i.slot.isSingleUse) := by
  cases event
  case completion c =>
    rw [start_completion, Option.map_eq_some_iff] at h
    obtain ⟨e, _, rfl⟩ := h
    simp [Invocation.rearms, Event.isSession]
  case watch w =>
    rw [start_watch] at h
    split at h
    case h_1 => cases h; simp [Invocation.rearms, Invocation.slot, Slot.isSingleUse, Event.id]
    case h_2 =>
      obtain ⟨hs, h⟩ := Option.ite_none_right_eq_some.mp h
      obtain ⟨e, _, rfl⟩ := Option.map_eq_some_iff.mp h
      simp [Invocation.rearms, Invocation.slot, Slot.isSingleUse, Event.isSession, hs]

theorem finish_unended (outcome : Outcome) :
    (d.finish i outcome).unended = d.unended.rearm i := by
  cases outcome <;> cases hk : i.kind <;> simp only [finish, Counters.ended, rearm, hk]
  all_goals try split
  all_goals rfl

theorem rearm_sums :
    let c := (d.rearm i).counters
    c.dispatchedSum = d.counters.dispatchedSum ∧ c.orphanSum = d.counters.orphanSum ∧
    c.failureSum = d.counters.failureSum ∧
    c.rearmSum = d.counters.rearmSum + (i.rearms i.slot).toNat := by
  simp only [rearm, Invocation.rearms, decide_true, Bool.true_and]
  cases i.kind
  case completion => exact ⟨rfl, rfl, rfl, rfl⟩
  case session    => exact ⟨rfl, rfl, rfl, rfl⟩
  case watch =>
    cases i.event.isSession && !i.event.id.isGlobal
    case false => exact ⟨rfl, rfl, rfl, rfl⟩
    case true  => exact ⟨rfl, rfl, rfl, Nat.succ_add ..⟩

end Dispatcher

theorem Counters.orphan_sums (event : Event) (c : Counters) :
    let c' := c.orphan event
    c'.dispatchedSum = c.dispatchedSum ∧ c'.orphanSum = c.orphanSum + 1 ∧
    c'.failureSum = c.failureSum ∧ c'.rearmSum = c.rearmSum := by
  cases event
  case completion => exact ⟨rfl, Nat.add_right_comm .., rfl, rfl⟩
  case watch      => exact ⟨rfl, rfl, rfl, rfl⟩

theorem Counters.ended_sums (kind : CallKind) (outcome : Outcome) (c : Counters) :
    let c' := c.ended kind outcome
    (c'.dispatchedSum, c'.failureSum) = (match outcome with
      | .ok => (c.dispatchedSum + 1, c.failureSum)
      | _ => (c.dispatchedSum, c.failureSum + 1)) ∧
    c'.orphanSum = c.orphanSum ∧ c'.rearmSum = c.rearmSum := by
  cases outcome <;> cases kind <;>
    simp only [ended, dispatched, dispatchedSum, orphanSum, failureSum, rearmSum, Prod.mk.injEq,
      and_true, true_and] <;>
    omega

namespace Verdict

variable {η : Type} {d : Dispatcher η} {i : Invocation η} {event : Event} {v : Verdict η}
  {vs : List (Verdict η)} {c c' : Counters}

theorem growth_of_toNat {reading : Counters → Nat} {b : Bool}
    (h : reading v.after = reading v.before + b.toNat) :
    v.growth reading = if b then 1 else 0 := by
  rw [growth, h]
  cases b
  case false => simp only [Bool.toNat_false, Bool.false_eq_true, if_false]; omega
  case true  => simp only [Bool.toNat_true, if_true]; omega

theorem counted_orphan (h : (d.start event).1 = none) (number : Nat) :
    (⟨number, event, none, false, d.counters, (d.start event).2.counters⟩ : Verdict η).Counted := by
  have ⟨hd, ho, hf, hr⟩ := d.counters.orphan_sums event
  rw [Dispatcher.start_counters, h, Option.isSome_none, if_neg Bool.false_ne_true]
  constructor
  case once =>
    simp only [growth, hd, ho, hf, Prod.mk.injEq]
    omega
  case told =>
    refine iff_of_true rfl ?_
    simp only [growth, ho]
    omega
  case rearmed =>
    simp only [growth, hr, isNotice, Option.any_none, Bool.and_false, Bool.false_eq_true, if_false]
    omega

theorem counted_finish (hr : i.rearms i.slot = (i.event.isSession && i.slot.isSingleUse))
    (number : Nat) (outcome : Outcome) :
    (⟨number, i.event, some (i, outcome), true, d.counters,
      (d.finish i outcome).counters⟩ : Verdict η).Counted := by
  obtain ⟨hd, ho, hf, hs⟩ :=
    Dispatcher.rearm_sums (d := { d with counters := d.counters.ended i.kind outcome }) (i := i)
  obtain ⟨he, ho', hs'⟩ := d.counters.ended_sums i.kind outcome
  obtain ⟨hd', hf'⟩ := Prod.mk.inj he
  simp only [ho', hs', hr] at hd ho hf hs
  constructor
  case once =>
    simp only [growth, Dispatcher.finish, hd, ho, hf, hd', hf']
    cases outcome <;> simp only [Prod.mk.injEq] <;> omega
  case told =>
    refine iff_of_false (by simp) ?_
    simp only [growth, Dispatcher.finish, ho]
    omega
  case rearmed => exact growth_of_toNat hs

namespace Linked

theorem concat (h : Linked c vs v.before) : Linked c (vs ++ [v]) v.after := by
  induction vs generalizing c
  case nil            => exact ⟨h.symm, rfl⟩
  case cons v' vs ih => exact ⟨h.left, ih h.right⟩

-- Each call has been counted once.
theorem callSum (h : Linked c vs c') (hc : ∀ v ∈ vs, v.Counted) :
    c'.callSum = c.callSum + vs.length := by
  induction vs generalizing c
  case nil => exact h ▸ rfl
  case cons v vs ih =>
    have hv := (hc v List.mem_cons_self).once
    have ih := ih h.right fun v hv => hc v (List.mem_cons_of_mem _ hv)
    have hb : v.after.callSum = c.callSum + 1 := by
      rw [← h.left]
      split at hv <;> simp only [growth, Prod.mk.injEq] at hv <;> simp only [Counters.callSum] <;>
        omega
    rw [ih, hb, List.length_cons]
    omega

end Linked

end Verdict

namespace Nesting

variable {η σ : Type} {s s' : Nesting η σ} {c : Counters} {conduct : Invocation η → Conduct η σ}
  {ends ends' : Nat → Outcome → Outcome}

-- Every call has returned once or is under way, and the counters have grown by the calls that have
-- returned.
structure Tallied (c : Counters) (s : Nesting η σ) : Prop where
  numbers : (s.verdicts.map Verdict.number ++ s.running.map Frame.number).Perm (.range s.calls)
  counted : ∀ v ∈ s.verdicts, v.Counted
  linked  : Verdict.Linked c s.verdicts s.counters
  routed  : ∀ f ∈ s.running, f.invocation.rearms f.invocation.slot =
    (f.invocation.event.isSession && f.invocation.slot.isSingleUse)

namespace Tallied

theorem initial (d : Dispatcher η) (shared : σ) (main : Conduct η σ) :
    Tallied d.counters (Nesting.initial d shared main) where
  numbers   := List.Perm.refl []
  counted _ := List.not_mem_nil.elim
  linked    := rfl
  routed _  := List.not_mem_nil.elim

theorem concat {v : Verdict η} (h : Tallied c s) (hb : v.before = s.counters) (hv : v.Counted) :
    (∀ v' ∈ s.verdicts ++ [v], v'.Counted) ∧ Verdict.Linked c (s.verdicts ++ [v]) v.after := by
  refine ⟨fun v' hm => ?_, (hb ▸ h.linked).concat⟩
  rcases List.mem_append.mp hm with hm | hm
  case inl => exact h.counted v' hm
  case inr => exact List.mem_singleton.mp hm ▸ hv

theorem dispatch (h : Tallied c s) (event : Event) (next : Bool → Conduct η σ) :
    Tallied c (s.dispatch conduct event next) := by
  have hc := s.dispatcher.start_counters event
  have hn := h.numbers
  unfold Nesting.dispatch
  split
  case h_1 i d hd =>
    have hi : (s.dispatcher.start event).1 = some i := by rw [hd]
    have hc : d.counters = s.counters := by rw [hd] at hc; exact hc
    constructor
    case counted => exact h.counted
    case linked =>
      change Verdict.Linked c s.verdicts d.counters
      exact hc ▸ h.linked
    case routed  =>
      rintro f (_ | ⟨_, hf⟩)
      · rw [Dispatcher.rearms_of_start hi, Dispatcher.start_event hi]
      · exact h.routed f hf
    case numbers =>
      rw [List.range_succ]
      exact List.perm_middle.trans <| (hn.cons _).trans <| (List.perm_append_singleton ..).symm
  case h_2 d hd =>
    have hi : (s.dispatcher.start event).1 = none := by rw [hd]
    have hv := Verdict.counted_orphan hi s.calls
    rw [hd] at hv
    have ⟨counted, linked⟩ := h.concat rfl hv
    refine ⟨?_, counted, linked, h.routed⟩
    simp only [List.map_append, List.map_singleton, List.append_assoc, List.range_succ]
    exact List.perm_middle.trans <| (hn.cons _).trans <| (List.perm_append_singleton ..).symm

theorem finish (h : Tallied c s) (outcome : Outcome) : Tallied c (s.finish outcome) := by
  have hn := h.numbers
  unfold Nesting.finish
  split
  case h_1 => exact h
  case h_2 f rest hr =>
    have hf : f ∈ s.running := hr ▸ List.mem_cons_self
    have hv := Verdict.counted_finish (d := s.dispatcher) (h.routed f hf) f.number outcome
    have ⟨counted, linked⟩ := h.concat rfl hv
    refine ⟨?_, counted, linked, fun f' hf' => h.routed f' (hr ▸ List.mem_cons_of_mem _ hf')⟩
    rw [hr] at hn
    simpa using hn

theorem step (h : Tallied c s) : Tallied c (s.step conduct ends) := by
  unfold Nesting.step
  split
  case h_1 => exact ⟨h.numbers, h.counted, h.linked, h.routed⟩
  case h_2 => exact h.dispatch ..
  case h_3 => exact h.finish _

theorem run (h : Tallied c s) (n : Nat) : Tallied c (s.run conduct ends n) := by
  induction n generalizing s
  case zero      => exact h
  case succ n ih => exact ih h.step

theorem callSum (h : Tallied c s) :
    s.counters.callSum + s.running.length = c.callSum + s.calls := by
  have hl := h.numbers.length_eq
  rw [List.length_append, List.length_map, List.length_map, List.length_range] at hl
  rw [h.linked.callSum h.counted]
  omega

end Tallied

-- The same has happened, but for how handlers ended and what was counted for that.
structure Matches (s s' : Nesting η σ) : Prop where
  registry : s'.dispatcher.registry = s.dispatcher.registry
  counters : s'.counters.unended = s.counters.unended
  shared   : s'.shared = s.shared
  current  : s'.current = s.current
  running  : s'.running = s.running
  calls    : s'.calls = s.calls
  verdicts : s'.verdicts.map Verdict.visible = s.verdicts.map Verdict.visible

namespace Matches

theorem refl (s : Nesting η σ) : s.Matches s :=
  ⟨rfl, rfl, rfl, rfl, rfl, rfl, rfl⟩

theorem unended (h : s.Matches s') : s'.dispatcher.unended = s.dispatcher.unended := by
  rw [Dispatcher.unended, h.registry, h.counters]
  rfl

-- One call more has returned.
theorem visible_concat (h : s.Matches s') {v v' : Verdict η} (hv : v'.visible = v.visible) :
    (s'.verdicts ++ [v']).map Verdict.visible = (s.verdicts ++ [v]).map Verdict.visible := by
  simp [h.verdicts, hv]

theorem access (h : s.Matches s') (change : Registry η → σ → Registry η × σ)
    (next : Registry η → σ → Conduct η σ) :
    (s.access change next).Matches (s'.access change next) := by
  refine ⟨?_, h.counters, ?_, ?_, h.running, h.calls, h.verdicts⟩
  all_goals simp only [Nesting.access, h.registry, h.shared]

theorem dispatch (h : s.Matches s') (event : Event) (next : Bool → Conduct η σ) :
    (s.dispatch conduct event next).Matches (s'.dispatch conduct event next) := by
  have hu := s.dispatcher.start_unended event
  rw [← h.unended, Dispatcher.start_unended] at hu
  have ⟨hi, hd⟩ := Prod.mk.inj hu
  unfold Nesting.dispatch
  rcases hs : s.dispatcher.start event with ⟨i, d⟩
  rcases hs' : s'.dispatcher.start event with ⟨i', d'⟩
  rw [hs, hs'] at hi hd
  cases hi
  have ⟨hr, hc⟩ := Dispatcher.unended_inj hd
  cases i
  case some i =>
    refine ⟨hr, hc, h.shared, rfl, ?_, ?_, h.verdicts⟩
    all_goals simp only [h.calls, h.running]
  case none =>
    refine ⟨hr, hc, h.shared, rfl, h.running, ?_, h.visible_concat ?_⟩
    all_goals simp only [h.calls, Verdict.visible]

theorem finish (h : s.Matches s') (outcome outcome' : Outcome) :
    (s.finish outcome).Matches (s'.finish outcome') := by
  unfold Nesting.finish
  rw [h.running]
  split
  case h_1 => exact h
  case h_2 f rest hr =>
    have hd : (s'.dispatcher.finish f.invocation outcome').unended =
        (s.dispatcher.finish f.invocation outcome).unended := by
      rw [Dispatcher.finish_unended, Dispatcher.finish_unended, h.unended]
    have ⟨hr, hc⟩ := Dispatcher.unended_inj hd
    exact ⟨hr, hc, h.shared, rfl, rfl, h.calls, h.visible_concat rfl⟩

theorem step (h : s.Matches s') : (s.step conduct ends).Matches (s'.step conduct ends') := by
  unfold Nesting.step
  rw [h.current]
  split
  case h_1 => exact h.access ..
  case h_2 => exact h.dispatch ..
  case h_3 => exact h.finish ..

theorem run (h : s.Matches s') (n : Nat) :
    (s.run conduct ends n).Matches (s'.run conduct ends' n) := by
  induction n generalizing s s'
  case zero      => exact h
  case succ n ih => exact ih h.step

end Matches

-- However dispatches are nested, and wherever a run is looked at: each call that has begun has
-- returned once or is under way, the counters have changed by what each call counted when it
-- returned, and by nothing else, and so there are as many counts as calls. If the handlers had
-- ended in other ways, everything else would be the same: the registry, what the calls answered,
-- whom the events reached, and all counters but those of handlers that ended well or badly.
theorem every_dispatch_counted (conduct : Invocation η → Conduct η σ)
    (ends ends' : Nat → Outcome → Outcome) (d : Dispatcher η) (shared : σ) (main : Conduct η σ)
    (n : Nat) :
    let s := (initial d shared main).run conduct ends n
    let s' := (initial d shared main).run conduct ends' n
    (s.verdicts.map Verdict.number ++ s.running.map Frame.number).Perm (.range s.calls) ∧
    (∀ v ∈ s.verdicts, v.Counted) ∧ Verdict.Linked d.counters s.verdicts s.counters ∧
    s.counters.callSum + s.running.length = d.counters.callSum + s.calls ∧
    s.Matches s' ∧ s'.counters.callSum = s.counters.callSum := by
  intro s s'
  have h : Tallied d.counters s := Tallied.initial d shared main |>.run n
  have h' : Tallied d.counters s' := Tallied.initial d shared main |>.run n
  have hm : s.Matches s' := Matches.refl _ |>.run n
  have hc' := h'.callSum
  rw [hm.running, hm.calls, ← h.callSum] at hc'
  exact ⟨h.numbers, h.counted, h.linked, h.callSum, hm, Nat.add_right_cancel hc'⟩

-- The handler dispatches its own answer once more, which finds nobody, and then fails.
example :
    let d : Dispatcher Unit := ⟨(Registry.empty.allocate (some ⟨(), none⟩) none).2, {}⟩
    let call {σ : Type} (outcome : Outcome) : Conduct Unit σ :=
      .dispatch (.completion ⟨⟨1⟩, .ok, none, .none⟩) fun _ => .finish outcome
    ((initial d () (call .ok)).run (fun _ => call (.failed "")) (fun _ own => own) 4).counters =
      { orphanCompletion := 1, failureError := 1 } := by
  decide

end Nesting
end Coordination
