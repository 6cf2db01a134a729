import Coordination.Client
import Coordination.Proofs.Dispatch.Halves

namespace Coordination

namespace Operation

variable {op : Operation} {watch : Bool}

-- Asking for a watch changes nothing else.
@[simp] theorem watching_path : (op.watching watch).path = op.path := by
  cases op <;> rfl

@[simp] theorem watching_name : (op.watching watch).name = op.name := by
  cases op <;> rfl

@[simp] theorem watching_supportsWatch :
    (op.watching watch).supportsWatch = op.supportsWatch := by
  cases op <;> rfl

end Operation

-- What `r'` has become of `r`: a request that is gone stays away.
structure Registry.Precedes {η : Type} (r r' : Registry η) : Prop where
  nextId : r.nextId.number ≤ r'.nextId.number
  absent : ∀ s, s.isSingleUse → s.id.number < r.nextId.number → r.get? s = none →
    r'.get? s = none

namespace Registry

variable {η : Type} {r r' : Registry η} {s : Slot}

theorem Precedes.refl : r.Precedes r :=
  ⟨Int.le_refl _, fun _ _ _ h => h⟩

theorem Precedes.of_eq (h : r' = r) : r.Precedes r' :=
  h ▸ .refl

theorem clear_precedes (global : Entry η) : r.Precedes (r.clear global).2 where
  nextId := Int.le_refl _
  absent s hs _ _ := by
    rw [get?_clear]
    split
    case isTrue h => cases h; cases hs
    case isFalse  => rfl

-- What a call does: it registers its handlers, and may forget them at once.
def enroll (completion watcher : Option (Entry η)) (kept : Bool) (r : Registry η) : Registry η :=
  if kept then (r.allocate completion watcher).2
  else (r.allocate completion watcher).2.discard r.nextId

section

variable {completion watcher : Option (Entry η)} {kept : Bool} {id : RequestId}

theorem enroll_nextId :
    (r.enroll completion watcher kept).nextId.number = r.nextId.number + 1 := by
  unfold enroll
  split
  case isTrue  => exact allocate_nextId ..
  case isFalse => rw [discard_nextId, allocate_nextId]

theorem nextId_lt_enroll :
    r.nextId.number < (r.enroll completion watcher kept).nextId.number := by
  rw [enroll_nextId]
  exact Int.lt_succ _

theorem get?_enroll_of_ne (h : s.id ≠ r.nextId) :
    (r.enroll completion watcher kept).get? s = r.get? s := by
  unfold enroll
  split
  case isTrue  => exact get?_allocate_of_ne _ _ h
  case isFalse => rw [get?_discard, if_neg (by simp [h]), get?_allocate_of_ne _ _ h]

theorem enroll_precedes : r.Precedes (r.enroll completion watcher kept) where
  nextId := Int.le_of_lt nextId_lt_enroll
  absent s _ hl ha := by
    have : s.id ≠ r.nextId := by rintro h; rw [h] at hl; exact Int.lt_irrefl _ hl
    rw [get?_enroll_of_ne this, ha]

theorem get?_enroll_forgotten (h : s.isSingleUse) :
    (r.enroll completion watcher false).get? s = none ∨
      (r.enroll completion watcher false).get? s = r.get? s := by
  by_cases hs : s.id = r.nextId
  case neg => exact .inr <| get?_enroll_of_ne hs
  case pos => exact .inl <| by rw [enroll, if_neg Bool.false_ne_true, get?_discard, if_pos ⟨hs, h⟩]

theorem get?_enroll_kept :
    (r.enroll completion watcher true).get? (.completion r.nextId) =
      completion.or (r.get? (.completion r.nextId)) := by
  rw [enroll, if_pos rfl, get?_allocate_completion, if_pos rfl]

-- An entry that is registered after a call was so before, or is the one of the call.
theorem get?_of_enroll {e : Entry η}
    (h : (r.enroll completion watcher kept).get? (.completion id) = some e) :
    r.get? (.completion id) = some e ∨ completion = some e := by
  by_cases hid : id = r.nextId
  case neg => exact .inl <| get?_enroll_of_ne (s := .completion id) hid ▸ h
  case pos =>
    subst hid
    cases kept
    case false =>
      have hf : (r.enroll completion watcher false).get? (.completion r.nextId) = none ∨ _ :=
        get?_enroll_forgotten rfl
      rw [h] at hf
      exact .inl <| (hf.resolve_left nofun).symm
    case true =>
      rw [get?_enroll_kept] at h
      exact (Option.or_eq_some_iff.mp h).symm.imp_left (·.right)

theorem get?_enroll_completion (h : r.get? (.completion r.nextId) = none) :
    (r.enroll completion watcher kept).get? (.completion id) =
      if id = r.nextId then (if kept then completion else none)
      else r.get? (.completion id) := by
  by_cases hid : id = r.nextId
  case neg => rw [if_neg hid, get?_enroll_of_ne (s := .completion id) hid]
  case pos =>
    subst hid
    cases kept <;>
      simp [enroll, get?_discard, Slot.id, Slot.isSingleUse, get?_allocate_completion, h]

theorem get?_enroll_watcher (h : r.get? (.watcher r.nextId) = none)
    (hg : r.nextId.isGlobal = false) :
    (r.enroll completion watcher kept).get? (.watcher id) =
      if id = r.nextId then (if kept then watcher else none)
      else r.get? (.watcher id) := by
  by_cases hid : id = r.nextId
  case neg => rw [if_neg hid, get?_enroll_of_ne (s := .watcher id) hid]
  case pos =>
    subst hid
    cases kept <;>
      simp [enroll, get?_discard, Slot.id, Slot.isSingleUse, get?_allocate_watcher, h, hg]

end

end Registry

-- The event is the answer to a request.
def Event.answers (id : RequestId) : Event → Bool
  | completion c => c.id = id
  | watch _ => false

namespace Callback

variable {ε : Type} {cb : Callback ε} {event : Event} {r : Registry (Callback ε)} {s : Slot}

-- Whether the client forgets the entry of a slot before the callback is called.
def forgets (event : Event) (s : Slot) (cb : Callback ε) : Bool :=
  match event, cb.watching with
  | .completion c, some isExists =>
    !watchWasSet isExists c.rc && s = .watcher c.id && s.isSingleUse
  | _, _ => false

theorem forgets_completion {id : RequestId} : cb.forgets event (.completion id) = false := by
  unfold forgets
  split <;> simp

theorem isSingleUse_of_forgets (h : cb.forgets event s) : s.isSingleUse := by
  unfold forgets at h
  split at h
  case h_1 => exact (Bool.and_eq_true _ _ |>.mp h).right
  case h_2 => cases h

theorem enter_nextId : (cb.enter event r).nextId = r.nextId := by
  unfold enter
  split
  case h_2 => rfl
  case h_1 =>
    split
    case isTrue  => rfl
    case isFalse => exact Registry.discardWatcher_nextId

theorem get?_enter :
    (cb.enter event r).get? s = if cb.forgets event s then none else r.get? s := by
  cases event
  case watch => rfl
  case completion c =>
    rcases hw : cb.watching with _ | isExists
    case none => simp [enter, forgets, hw]
    case some =>
      cases hs : watchWasSet isExists c.rc <;>
        simp [enter, forgets, hw, hs, Registry.get?_discardWatcher]

end Callback

namespace Connection

variable {β ε : Type} {c : Connection β (Callback ε)} {e : Event} {s : Slot}

theorem enter_fst : (c.enter e).1 = (c.dispatcher.start e).1 := by
  unfold enter
  split <;> simp_all

theorem enter_completion {c' : CompletionEvent} :
    (c.enter (.completion c')).1 =
      (c.registry.get? (.completion c'.id)).map (⟨.completion, .completion c', ·⟩) :=
  enter_fst.trans (Dispatcher.start_completion c')

theorem enter_snd :
    (c.enter e).2 = { c with dispatcher := (c.enter e).2.dispatcher } := by
  unfold enter
  split <;> rfl

theorem enter_orphans {i : Invocation (Callback ε)} (h : (c.enter e).1 = some i) :
    (c.enter e).2.dispatcher.orphans = c.dispatcher.orphans := by
  rw [enter_fst] at h
  have ho := Dispatcher.start_orphans h
  unfold enter
  split
  case h_1 hd => rw [hd] at h; cases h
  case h_2 hd => rw [hd] at ho; exact ho

theorem enter_nextId : (c.enter e).2.registry.nextId = c.registry.nextId := by
  have h := c.dispatcher.start_nextId e
  unfold enter
  split
  case h_1 hd => rw [hd] at h; exact h
  case h_2 hd => rw [hd] at h; exact Callback.enter_nextId.trans h

theorem get?_enter :
    (c.enter e).2.registry.get? s =
      if (c.enter e).1.any (fun i => i.consumes s || i.entry.handler.forgets e s) then none
      else c.registry.get? s := by
  have h := c.dispatcher.get?_start (s := s) e
  rcases hd : c.dispatcher.start e with ⟨_ | i, d⟩
  case none =>
    rw [hd] at h
    simpa [enter, hd, registry] using h
  case some =>
    have he : i.event = e := Dispatcher.start_event <| by rw [hd]
    rw [hd] at h
    have hr : (c.enter e).2.registry = i.entry.handler.enter i.event d.registry := by
      simp [enter, hd, registry, withRegistry]
    rw [hr, Callback.get?_enter, h, enter_fst, hd, he]
    cases hf : i.entry.handler.forgets e s <;> simp [registry, hf]

theorem get?_enter_of_permanent (hs : s.isSingleUse = false) :
    (c.enter e).2.registry.get? s = c.registry.get? s := by
  rw [get?_enter, if_neg]
  simp only [Option.any_eq_true, Bool.or_eq_true, not_exists, not_and, not_or]
  refine fun i _ => ⟨fun h => ?_, fun h => ?_⟩
  · simp [Invocation.isSingleUse_of_consumes h] at hs
  · simp [Callback.isSingleUse_of_forgets h] at hs

-- Only the answer takes a callback out.
theorem get?_enter_completion {id : RequestId} :
    (c.enter e).2.registry.get? (.completion id) =
      if e.answers id then none else c.registry.get? (.completion id) := by
  rw [get?_enter, enter_fst]
  cases e
  case completion c' =>
    rw [Dispatcher.start_completion]
    by_cases h : c'.id = id
    case neg =>
      cases c.dispatcher.registry.get? (.completion c'.id) <;>
        simp [Event.answers, h, Callback.forgets_completion]
    case pos =>
      subst h
      cases hr : c.dispatcher.registry.get? (.completion c'.id) <;>
        simp [Event.answers, registry, hr]
  case watch w =>
    rw [Dispatcher.start_watch]
    cases c.dispatcher.registry.get? (.watcher w.id)
    case some => simp [Event.answers, Callback.forgets_completion]
    case none =>
      cases w.type.isSession <;> cases c.dispatcher.registry.get? (.completion w.id) <;>
        simp [Event.answers, Callback.forgets_completion]

-- When the handler ends that was handed a session notice, its entry is where it was.
theorem get?_leave_enter {i : Invocation (Callback ε)} {id : RequestId}
    (h : (c.enter e).1 = some i) (outcome : Outcome) :
    ((c.enter e).2.leave i outcome).registry.get? (.completion id) =
      (c.enter e).2.registry.get? (.completion id) := by
  refine (Dispatcher.get?_finish i outcome).trans ?_
  split
  case isFalse => rfl
  case isTrue hr =>
    have hs := Dispatcher.get?_of_start (enter_fst ▸ h)
    have hc := Invocation.consumes_eq_false_of_rearms hr
    have hg : (c.enter e).2.registry.get? (.completion id) = some i.entry := by
      rw [get?_enter, h, Option.any_some, hc, Callback.forgets_completion, ← hs,
        Invocation.slot_of_rearms hr]
      rfl
    exact (congrArg (·.or (some i.entry)) hg).trans hg.symm

theorem assertOpen_ok [Backend β] (h : c.assertOpen = .ok ()) :
    c.running ∧ c.closed = false ∧ Backend.state c.backend = .connected := by
  unfold assertOpen at h
  split at h
  case isTrue => cases h
  case isFalse ho =>
    split at h <;> cases h
    case h_1 hs => simp_all

end Connection

namespace Client

variable {β ε : Type} [Backend β] {c : Connection β (Callback ε)} {op : Operation}
  {o : CallOptions ε}

theorem accept_ok {hasWatcher : Bool} (h : accept op hasWatcher c = .ok ()) :
    (hasWatcher → op.supportsWatch) ∧ c.assertOpen = .ok () := by
  simp only [accept, bind, Except.bind] at h
  split at h
  case h_1 => cases h
  case h_2 =>
    split at h
    case isTrue => cases h
    case isFalse hs => exact ⟨by simpa using hs, h⟩

theorem accept_path {hasWatcher : Bool} (h : accept op hasWatcher c = .ok ()) :
    op.path.toList.head? = some '/' := by
  by_cases hp : op.path.toList.head? = some '/'
  case pos => exact hp
  case neg => simp [accept, checkPath, hp, bind, Except.bind] at h

-- Whether the handlers of a call stay registered, given the answer of the service.
def kept (op : Operation) (o : CallOptions ε) : Except Error CallResult → Bool
  | .error _ => false
  | .ok result => keeps op o result.rc

def call (op : Operation) (o : CallOptions ε) : Call :=
  ⟨op.watching o.hasWatcher, if o.isAsync then .async else .sync⟩

theorem submit_rejected {e : Error}
    (h : accept (op.watching o.hasWatcher) o.hasWatcher c = .error e) :
    submit op o c = (.error e, c) := by
  simp only [submit, h]

-- The reply to a call that the service has answered.
def reply (op : Operation) (id : RequestId) (target : Target) (result : CallResult) : Reply :=
  ⟨id, result.rc, if op.isCreate then result.payload.strip target else result.payload⟩

theorem submit_accepted (h : accept (op.watching o.hasWatcher) o.hasWatcher c = .ok ()) :
    submit op o c =
      let (result, backend) := Backend.issue c.registry.nextId (call op o) c.backend
      (result.map (reply (op.watching o.hasWatcher) c.registry.nextId c.target), { c with
        backend := backend
        dispatcher.registry := c.registry.enroll
          (completionEntry (op.watching o.hasWatcher) c.target o) (watcherEntry o)
          (kept (op.watching o.hasWatcher) o result) }) := by
  simp only [submit, h, call, Registry.allocate_id]
  rcases Backend.issue _ _ _ with ⟨result | result, backend⟩
  case error => rfl
  case ok =>
    cases hk : keeps (op.watching o.hasWatcher) o result.rc <;> simp only [kept, hk] <;> rfl

def accepted? : Except Error Reply → Option RequestId
  | .error _ => none
  | .ok reply => if reply.rc.isOk then some reply.id else none

theorem submit_nextId :
    c.registry.nextId.number ≤ (submit op o c).2.registry.nextId.number := by
  cases h : accept (op.watching o.hasWatcher) o.hasWatcher c
  case error => exact Int.le_of_eq (by rw [submit_rejected h])
  case ok =>
    rw [submit_accepted h]
    exact Registry.enroll_precedes.nextId

theorem get?_submit_of_ne {s : Slot} (hs : s.id ≠ c.registry.nextId) :
    (submit op o c).2.registry.get? s = c.registry.get? s := by
  cases h : accept (op.watching o.hasWatcher) o.hasWatcher c
  case error => rw [submit_rejected h]
  case ok =>
    rw [submit_accepted h]
    exact Registry.get?_enroll_of_ne hs

-- A callback that is registered after a call was so before, or is the one of the call.
theorem get?_of_submit {id : RequestId} {e : Entry (Callback ε)}
    (h : (submit op o c).2.registry.get? (.completion id) = some e) :
    c.registry.get? (.completion id) = some e ∨ o.callback = some e.handler.receiver := by
  cases ha : accept (op.watching o.hasWatcher) o.hasWatcher c
  case error => rw [submit_rejected ha] at h; exact .inl h
  case ok =>
    rw [submit_accepted ha] at h
    refine (Registry.get?_of_enroll h).imp_right fun he => ?_
    obtain ⟨receiver, hr, rfl⟩ := Option.map_eq_some_iff.mp he
    exact hr

theorem submit_async (ho : o.isAsync) :
    match accepted? (submit op o c).1 with
    | some id => id = c.registry.nextId ∧
        id.number < (submit op o c).2.registry.nextId.number ∧
        (submit op o c).2.registry.get? (.completion id) =
          completionEntry (op.watching o.hasWatcher) c.target o
    | none => ∀ id, (submit op o c).2.registry.get? (.completion id) = none ∨
        (submit op o c).2.registry.get? (.completion id) = c.registry.get? (.completion id) := by
  cases h : accept (op.watching o.hasWatcher) o.hasWatcher c
  case error => rw [submit_rejected h]; exact fun _ => .inr rfl
  case ok =>
    rw [submit_accepted h]
    rcases Backend.issue _ _ _ with ⟨_ | result, backend⟩
    case error => exact fun _ => Registry.get?_enroll_forgotten rfl
    case ok =>
      have hk : kept (op.watching o.hasWatcher) o (.ok result) = result.rc.isOk := by
        simp [kept, keeps, ho]
      cases hr : result.rc.isOk <;> rw [hr] at hk <;>
        simp only [Except.map, accepted?, reply, hr, if_true, hk]
      case false => exact fun _ => Registry.get?_enroll_forgotten rfl
      case true =>
        have ⟨receiver, hc⟩ := Option.isSome_iff_exists.mp ho
        refine ⟨trivial, ?_, Registry.get?_enroll_kept.trans ?_⟩
        · change _ < (c.registry.enroll _ _ true).nextId.number
          exact Registry.nextId_lt_enroll
        · simp [completionEntry, hc]

end Client
end Coordination
