import Coordination.Proofs.Dispatch.Halves

namespace Coordination

-- Whether the event uses up the entry of a slot, if there is one.
def Event.spends (s : Slot) : Event → Bool
  | completion c => s = .completion c.id
  | watch w => s = .watcher w.id && !Registry.keepsWatcher w.id w.type

namespace Registry

variable {η : Type} {r r' : Registry η} {s : Slot} {e : Event} {es before : List Event}

-- What is left of the entry of a slot after some events.
def left (es : List Event) (r : Registry η) (s : Slot) : Option (Entry η) :=
  if es.any (·.spends s) then none else r.get? s

-- Whom an event is for, after some events. A session notice for a request whose watcher is not
-- there, or not there any more, is for the completion.
def recipient (before : List Event) (r : Registry η) : Event → Option (CallKind × Entry η)
  | .completion c => (r.left before (.completion c.id)).map (.completion, ·)
  | .watch w =>
    match r.left before (.watcher w.id) with
    | some entry => some (.watch, entry)
    | none =>
      if w.type.isSession then (r.left before (.completion w.id)).map (.session, ·) else none

-- The tables without the entries that some events use up.
def without (es : List Event) (r : Registry η) : Registry η :=
  { r with
    completions := r.completions.filter fun id _ => !es.any (·.spends (.completion id))
    watchers := r.watchers.filter fun id _ => !es.any (·.spends (.watcher id)) }

@[simp] theorem left_nil : r.left [] s = r.get? s :=
  rfl

theorem ext_get? (hn : r'.nextId = r.nextId) (h : ∀ s, r'.get? s = r.get? s) : r' = r := by
  have hc : r'.completions = r.completions :=
    Std.ExtTreeMap.ext_getElem? fun id => h (.completion id)
  have hw : r'.watchers = r.watchers := Std.ExtTreeMap.ext_getElem? fun id => h (.watcher id)
  obtain ⟨_, _, _⟩ := r
  obtain ⟨_, _, _⟩ := r'
  simp_all

theorem get?_without : (r.without es).get? s = r.left es s := by
  cases s
  case completion id =>
    simp only [get?, without, left, Std.ExtTreeMap.getElem?_filter']
    generalize r.completions[id]? = found
    cases found <;> grind
  case watcher id =>
    simp only [get?, without, left, Std.ExtTreeMap.getElem?_filter']
    generalize r.watchers[id]? = found
    cases found <;> grind

-- The events that are through already count as well.
theorem left_without : (r.without [e]).left es s = r.left (e :: es) s := by
  simp only [left, get?_without, List.any_cons, List.any_nil, Bool.or_false, Bool.or_eq_true]
  by_cases h : e.spends s <;> simp [h]

theorem recipient_without (event : Event) :
    (r.without [e]).recipient before event = r.recipient (e :: before) event := by
  cases event <;> simp only [recipient, left_without]

theorem without_without : (r.without [e]).without es = r.without (e :: es) :=
  ext_get? rfl fun s => by rw [get?_without, get?_without, left_without]

end Registry

namespace Dispatcher

variable {η : Type} {d : Dispatcher η} {event : Event} {i : Invocation η} {s : Slot}

-- A dispatch to a handler that leaves the registry alone; `none` if there is no handler.
def dispatch (event : Event) (outcome : Outcome) (d : Dispatcher η) :
    Option (Invocation η) × Dispatcher η :=
  match d.start event with
  | (some i, d) => (some i, d.finish i outcome)
  | (none, d) => (none, d)

-- Dispatches events one after the other, each with the outcome of its handler.
def dispatchAll :
    List (Event × Outcome) → Dispatcher η → List (Option (Invocation η)) × Dispatcher η
  | [], d => ([], d)
  | (event, outcome) :: rest, d =>
    let (i, d) := d.dispatch event outcome
    let (is, d) := dispatchAll rest d
    (i :: is, d)

theorem start_eq_recipient :
    (d.start event).1 = (d.registry.recipient [] event).map fun (kind, e) => ⟨kind, event, e⟩ := by
  cases event
  case completion c =>
    rw [start_completion, Registry.recipient, Registry.left_nil, Option.map_map]
    rfl
  case watch w =>
    rw [start_watch, Registry.recipient, Registry.left_nil, Registry.left_nil]
    cases d.registry.get? (.watcher w.id)
    case some => rfl
    case none => cases w.type.isSession <;> simp [Function.comp_def]

-- An entry is used up by the event that spends it, and by no other.
theorem consumes_eq_spends {e : Entry η} (he : d.registry.get? s = some e) :
    (d.start event).1.any (·.consumes s) = event.spends s := by
  cases event
  case completion c =>
    rw [start_completion]
    by_cases h : s = .completion c.id
    case pos => subst h; simp [he, Event.spends]
    case neg => cases d.registry.get? (.completion c.id) <;> simp [Event.spends, h, Ne.symm h]
  case watch w =>
    rw [start_watch]
    by_cases h : s = .watcher w.id
    case pos => subst h; simp [he, Event.spends]
    case neg =>
      cases d.registry.get? (.watcher w.id)
      case some => simp [Event.spends, h, Ne.symm h]
      case none =>
        cases w.type.isSession <;> cases d.registry.get? (.completion w.id) <;>
          simp [Event.spends, h]

-- What a handler gives back when it has ended was there before.
theorem get?_dispatch (outcome : Outcome) :
    (d.dispatch event outcome).2.registry.get? s =
      if event.spends s then none else d.registry.get? s := by
  have hstart := get?_start (d := d) (s := s) event
  have hfinish : (d.dispatch event outcome).2.registry.get? s =
      if (d.start event).1.any (·.consumes s) then none else d.registry.get? s := by
    simp only [dispatch]
    split
    case h_2 h => rw [h] at hstart ⊢; exact hstart
    case h_1 i d' h =>
      rw [h] at hstart ⊢
      rw [get?_finish, hstart]
      cases hr : i.rearms s
      case false => rfl
      case true =>
        have hi : (d.start event).1 = some i := congrArg Prod.fst h
        have hs : d.registry.get? s = some i.entry :=
          Invocation.slot_of_rearms hr ▸ get?_of_start hi
        simp [Invocation.consumes_eq_false_of_rearms hr, hs]
  rw [hfinish]
  cases he : d.registry.get? s
  case none   => simp
  case some e => rw [consumes_eq_spends he]

theorem dispatch_nextId (outcome : Outcome) :
    (d.dispatch event outcome).2.registry.nextId = d.registry.nextId := by
  have hstart := start_nextId (d := d) event
  simp only [dispatch]
  split
  case h_1 h => rw [h] at hstart; rw [finish_nextId, hstart]
  case h_2 h => rw [h] at hstart; exact hstart

theorem dispatch_called (outcome : Outcome) :
    (d.dispatch event outcome).1 = (d.start event).1 := by
  simp only [dispatch]
  split
  all_goals next h => rw [h]

theorem dispatch_registry (outcome : Outcome) :
    (d.dispatch event outcome).2.registry = d.registry.without [event] :=
  Registry.ext_get? (dispatch_nextId outcome) fun s => by
    simp [get?_dispatch, Registry.get?_without, Registry.left]

-- Each event is handed to whom the registry named in the beginning, unless an event before it used
-- that entry up, and what is left in the end is what no event used up.
theorem dispatchAll_eq_reference (d : Dispatcher η) (es : List (Event × Outcome)) :
    (d.dispatchAll es).1 = (es.mapIdx fun k (event, _) =>
      d.registry.recipient ((es.take k).map Prod.fst) event |>.map
        fun (kind, e) => ⟨kind, event, e⟩) ∧
    (d.dispatchAll es).2.registry = d.registry.without (es.map Prod.fst) := by
  induction es generalizing d
  case nil =>
    refine ⟨rfl, Registry.ext_get? rfl fun s => ?_⟩
    rw [List.map_nil, Registry.get?_without, Registry.left_nil, dispatchAll]
  case cons e es ih =>
    have ⟨hcalled, hleft⟩ := ih (d.dispatch e.1 e.2).2
    rw [dispatch_registry] at hcalled hleft
    constructor
    case left =>
      simp only [dispatchAll, hcalled, dispatch_called, start_eq_recipient, List.mapIdx_cons,
        List.take_zero, List.take_succ_cons, List.map_nil, List.map_cons,
        Registry.recipient_without]
    case right => rw [dispatchAll, hleft, Registry.without_without, List.map_cons]

end Dispatcher
end Coordination
