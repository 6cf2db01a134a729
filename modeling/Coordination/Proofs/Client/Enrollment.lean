import Coordination.Backend.Memory
import Coordination.Proofs.Client.Registration
import Coordination.Proofs.Dispatch.Routing

namespace Coordination

def Entries.adding {η : Type} (id : RequestId) (e : Option (Entry η)) (t : Entries η) :
    Entries η :=
  match e with
  | some e => t.insert id e
  | none => t

theorem Entries.getElem?_adding {η : Type} {t : Entries η} {id j : RequestId}
    (e : Option (Entry η)) : (t.adding id e)[j]? = if j = id then e.or t[j]? else t[j]? := by
  cases e <;> simp [adding, getElem?_put]

namespace Registry

variable {η : Type} {r r' : Registry η} {id : RequestId} {s : Slot}

-- What can become of a registry: its operations, in any order. Entries are put back only for
-- requests that were given out.
inductive Arises {η : Type} : Registry η → Prop
  | empty : Arises empty
  | allocate {r : Registry η} (completion watcher : Option (Entry η)) (h : Arises r) :
    Arises (r.allocate completion watcher).2
  | resolveCompletion {r : Registry η} (id : RequestId) (h : Arises r) :
    Arises (r.resolveCompletion id).2
  | resolveWatcher {r : Registry η} (id : RequestId) (type : EventType) (h : Arises r) :
    Arises (r.resolveWatcher id type).2
  | restoreCompletion {r : Registry η} {id : RequestId} (e : Entry η)
    (given : id.number < r.nextId.number) (h : Arises r) : Arises (r.restoreCompletion id e)
  | restoreWatcher {r : Registry η} {id : RequestId} (e : Entry η)
    (given : id.number < r.nextId.number) (h : Arises r) : Arises (r.restoreWatcher id e)
  | discardWatcher {r : Registry η} (id : RequestId) (h : Arises r) : Arises (r.discardWatcher id)
  | discard {r : Registry η} (id : RequestId) (h : Arises r) : Arises (r.discard id)
  | installGlobal {r : Registry η} (global : Entry η) (h : Arises r) :
    Arises (r.installGlobal global)
  | clear {r : Registry η} (global : Entry η) (h : Arises r) : Arises (r.clear global).2

-- Nothing is registered under a number that was not given out, and no number given out is that of
-- the global watcher.
structure Bounded (r : Registry η) : Prop where
  positive : 0 < r.nextId.number
  given    : ∀ s e, r.get? s = some e → s.id.number < r.nextId.number

namespace Bounded

theorem empty : Bounded (empty : Registry η) where
  positive    := Int.zero_lt_one
  given _ _ h := nomatch get?_empty.symm.trans h

theorem of_get? (b : r.Bounded) (hn : r'.nextId = r.nextId)
    (h : ∀ s e, r'.get? s = some e → r.get? s = some e ∨ s.id.number < r.nextId.number) :
    r'.Bounded where
  positive     := hn ▸ b.positive
  given s e he := hn ▸ (h s e he).elim (b.given s e) id

theorem of_left (b : r.Bounded) (hn : r'.nextId = r.nextId)
    (h : ∀ s, r'.get? s = none ∨ r'.get? s = r.get? s) : r'.Bounded :=
  b.of_get? hn fun s _ he => (h s).elim (fun h => nomatch h.symm.trans he) fun h => .inl (h ▸ he)

theorem allocate (b : r.Bounded) (completion watcher : Option (Entry η)) :
    (r.allocate completion watcher).2.Bounded where
  positive := Int.lt_trans b.positive (Int.lt_succ _)
  given s e he := by
    by_cases hs : s.id = r.nextId
    case pos => rw [hs]; exact Int.lt_succ _
    case neg =>
      rw [get?_allocate_of_ne _ _ hs] at he
      exact Int.lt_trans (b.given s e he) (Int.lt_succ _)

theorem global_lt (b : r.Bounded) : RequestId.global.number < r.nextId.number :=
  Int.lt_trans (by decide) b.positive

theorem absent (b : r.Bounded) (hs : s.id = r.nextId) : r.get? s = none :=
  Option.eq_none_iff_forall_ne_some.mpr fun e he =>
    absurd (hs ▸ b.given s e he) (Int.lt_irrefl _)

theorem isGlobal_nextId (b : r.Bounded) : r.nextId.isGlobal = false := by
  refine decide_eq_false fun h => ?_
  exact absurd (h ▸ b.global_lt) (Int.lt_irrefl _)

end Bounded

theorem Arises.bounded (h : r.Arises) : r.Bounded := by
  induction h
  case empty                => exact .empty
  case allocate c w _ b     => exact b.allocate c w
  case resolveCompletion b  =>
    exact b.of_left rfl fun s => by rw [get?_resolveCompletion]; split <;> simp
  case resolveWatcher t _ b =>
    exact b.of_left (resolveWatcher_nextId t) fun s => by rw [get?_resolveWatcher]; split <;> simp
  case restoreCompletion given _ b =>
    refine b.of_get? rfl fun s e he => ?_
    rw [get?_restoreCompletion] at he
    split at he
    case isTrue h  => exact .inr <| h ▸ given
    case isFalse h => exact .inl he
  case restoreWatcher given _ b =>
    refine b.of_get? rfl fun s e he => ?_
    rw [get?_restoreWatcher] at he
    split at he
    case isTrue h  => exact .inr <| h ▸ given
    case isFalse h => exact .inl he
  case discardWatcher b =>
    exact b.of_left discardWatcher_nextId fun s => by rw [get?_discardWatcher]; split <;> simp
  case discard b =>
    exact b.of_left discard_nextId fun s => by rw [get?_discard]; split <;> simp
  case installGlobal global _ b =>
    refine b.of_get? rfl fun s e he => ?_
    rw [get?_installGlobal] at he
    split at he
    case isTrue h  => exact .inr <| h ▸ b.global_lt
    case isFalse h => exact .inl he
  case clear global _ b =>
    refine b.of_get? rfl fun s e he => ?_
    rw [get?_clear] at he
    split at he
    case isTrue h  => exact .inr <| h ▸ b.global_lt
    case isFalse h => cases he

section

variable {completion watcher : Option (Entry η)} {kept : Bool}

-- The handlers of a call are there afterwards, or there is no trace of them.
theorem Bounded.enroll_eq (b : r.Bounded) :
    r.enroll completion watcher kept = {
      nextId := ⟨r.nextId.number + 1⟩
      completions := r.completions.adding r.nextId (if kept then completion else none)
      watchers := r.watchers.adding r.nextId (if kept then watcher else none) } := by
  have hn : (r.enroll completion watcher kept).nextId = ⟨r.nextId.number + 1⟩ := by
    rw [← enroll_nextId]
  refine ext_get? hn fun s => ?_
  cases s
  case completion id =>
    have absent : r.get? (.completion r.nextId) = none := b.absent rfl
    refine (get?_enroll_completion absent).trans <| .trans ?_ (Entries.getElem?_adding _).symm
    split
    case isTrue h => subst h; exact ((congrArg _ absent).trans Option.or_none).symm
    case isFalse  => rfl
  case watcher id =>
    have absent : r.get? (.watcher r.nextId) = none := b.absent rfl
    refine (get?_enroll_watcher absent b.isGlobal_nextId).trans <| .trans ?_
      (Entries.getElem?_adding _).symm
    split
    case isTrue h => subst h; exact ((congrArg _ absent).trans Option.or_none).symm
    case isFalse  => rfl

theorem Bounded.hasCompletion_adding (b : r.Bounded)
    (h : r'.completions = r.completions.adding r.nextId completion) :
    r'.hasCompletion r.nextId = completion.isSome := by
  have absent : r.completions[r.nextId]? = none := b.absent (s := .completion r.nextId) rfl
  rw [hasCompletion_eq, get?, h, Entries.getElem?_adding, if_pos rfl, absent, Option.or_none]

theorem Bounded.hasWatcher_adding (b : r.Bounded)
    (h : r'.watchers = r.watchers.adding r.nextId watcher) :
    r'.hasWatcher r.nextId = watcher.isSome := by
  have absent : r.watchers[r.nextId]? = none := b.absent (s := .watcher r.nextId) rfl
  rw [hasWatcher_eq, get?, h, Entries.getElem?_adding, if_pos rfl, absent, Option.or_none]

theorem Arises.enroll (h : r.Arises) : (r.enroll completion watcher kept).Arises := by
  unfold Registry.enroll
  split
  case isTrue  => exact h.allocate _ _
  case isFalse => exact h.allocate _ _ |>.discard _

end

end Registry

namespace Connection

open Registry

variable {β ε : Type} {c : Connection β (Callback ε)} {i : Invocation (Callback ε)} {event : Event}

-- A handler is called for a request that was given out, or for the whole session.
theorem given_of_enter (h : c.registry.Bounded) (hi : (c.enter event).1 = some i) :
    i.event.id.number < c.registry.nextId.number := by
  rw [enter_fst] at hi
  exact i.slot_id ▸ h.given _ _ (Dispatcher.get?_of_start hi)

theorem arises_start [Backend β] (h : c.registry.Arises) (timeout : Duration) :
    (c.start timeout).2.1.registry.Arises := by
  simp only [start]
  split
  case isTrue => exact h
  case isFalse =>
    split
    case h_1 => exact h.clear _
    case h_2 => exact h.clear _

theorem arises_submit [Backend β] (h : c.registry.Arises) (op : Operation) (o : CallOptions ε) :
    (Client.submit op o c).2.registry.Arises := by
  cases ha : Client.accept (op.watching o.hasWatcher) o.hasWatcher c
  case error => rwa [Client.submit_rejected ha]
  case ok    => rw [Client.submit_accepted ha]; exact h.enroll

theorem arises_enter (h : c.registry.Arises) (event : Event) :
    (c.enter event).2.registry.Arises := by
  have hs : (c.dispatcher.start event).2.registry.Arises := by
    cases event
    case completion => rw [Dispatcher.start_completion_registry]; exact h.resolveCompletion _
    case watch      => rw [Dispatcher.start_watch_registry]; exact h.resolveWatcher _ _
  unfold enter
  split
  case h_1 hd => rw [hd] at hs; exact hs
  case h_2 i dispatcher hd =>
    rw [hd] at hs
    change (i.entry.handler.enter i.event dispatcher.registry).Arises
    unfold Callback.enter
    split
    case h_1 =>
      split
      case isTrue  => exact hs
      case isFalse => exact hs.discardWatcher _
    case h_2 => exact hs

-- Whatever happens between the two halves, a dispatch ends well.
theorem arises_leave (h : c.registry.Arises)
    (given : i.event.id.number < c.registry.nextId.number) (outcome : Outcome) :
    (c.leave i outcome).registry.Arises := by
  simp only [leave, registry, Dispatcher.finish, Dispatcher.rearm]
  split
  case h_1 => exact h
  case h_2 =>
    split
    case isTrue  => exact h.restoreWatcher _ given
    case isFalse => exact h
  case h_3 => exact h.restoreCompletion _ given

end Connection

-- The errors with which the client refuses a call itself.
def Error.isRefusal : Error → Bool
  | badArguments _ | shuttingDown | notConnected | sessionExpired => true
  | _ => false

namespace Client

variable {β ε : Type} [Backend β] {c : Connection β (Callback ε)} {op : Operation}
  {o : CallOptions ε} {e : Error}

theorem accept_error {hasWatcher : Bool} (h : accept op hasWatcher c = .error e) :
    e.isRefusal := by
  simp only [accept, bind, Except.bind] at h
  split at h
  case h_1 hp =>
    cases h
    unfold checkPath at hp
    split at hp <;> cases hp
    rfl
  case h_2 =>
    split at h
    case isTrue => cases h; rfl
    case isFalse =>
      unfold Connection.assertOpen at h
      split at h
      case isTrue => cases h; rfl
      case isFalse => split at h <;> cases h <;> rfl

-- Whether the watcher of a call stays, given the answer: the watch is there, or the call was accepted
-- and the watch is yet to be set.
def Watches (op : Operation) (o : CallOptions ε) (rc : ResultCode) : Prop :=
  rc = .ok ∨ o.isAsync = false ∧ op.isExists ∧ rc = .noNode

instance (rc : ResultCode) : Decidable (Watches op o rc) :=
  inferInstanceAs (Decidable (_ ∨ _))

-- What is registered when a call was answered: besides what was before, its callback if the answer
-- is yet to come, and its watcher if the watch is there or is yet to be set.
structure Enrolled (op : Operation) (o : CallOptions ε) (reply : Reply)
    (c c' : Connection β (Callback ε)) : Prop where
  id            : reply.id = c.registry.nextId
  rc            : ∃ result, reply.rc = result.rc ∧
    (Backend.issue c.registry.nextId (call op o) c.backend).1 = .ok result
  nextId        : c'.registry.nextId = ⟨c.registry.nextId.number + 1⟩
  completions   : c'.registry.completions = c.registry.completions.adding reply.id
    (if reply.rc = .ok then completionEntry (op.watching o.hasWatcher) c.target o else none)
  watchers      : c'.registry.watchers = c.registry.watchers.adding reply.id
    (if Watches op o reply.rc then watcherEntry o else none)
  hasCompletion : c'.registry.hasCompletion reply.id ↔ o.isAsync ∧ reply.rc = .ok
  hasWatcher    : c'.registry.hasWatcher reply.id ↔ o.hasWatcher ∧ Watches op o reply.rc

theorem completionEntry_isSome (op : Operation) (target : Target) :
    (completionEntry op target o).isSome = o.isAsync :=
  Option.isSome_map

theorem watcherEntry_isSome : (watcherEntry o).isSome = o.hasWatcher :=
  Option.isSome_map

theorem isSome_ite {α : Type} {p : Prop} [Decidable p] {x : Option α} :
    (if p then x else none).isSome ↔ x.isSome ∧ p := by
  split <;> simp_all

theorem completionEntry_of_sync {target : Target} (h : o.isAsync = false) :
    completionEntry op target o = none := by
  rw [completionEntry, Option.not_isSome_iff_eq_none.mp (Bool.eq_false_iff.mp h), Option.map_none]

theorem completionEntry_of_kept {result : CallResult} {target : Target} :
    (if kept op o (.ok result) then completionEntry op target o else none) =
      if result.rc = .ok then completionEntry op target o else none := by
  cases ho : o.isAsync
  case false => simp only [completionEntry_of_sync ho, ite_self]
  case true  => simp [kept, keeps, ho, ResultCode.isOk]

theorem watcherEntry_of_kept {result : CallResult} :
    (if kept (op.watching o.hasWatcher) o (.ok result) then watcherEntry o else none) =
      if Watches op o result.rc then watcherEntry o else none := by
  have he : (op.watching o.hasWatcher).isExists = op.isExists := by cases op <;> rfl
  cases hw : o.hasWatcher
  case false =>
    have hn : watcherEntry o = none := by
      rw [watcherEntry, Option.not_isSome_iff_eq_none.mp (Bool.eq_false_iff.mp hw), Option.map_none]
    simp only [hn, ite_self]
  case true =>
    rw [hw] at he
    cases ho : o.isAsync <;>
      simp [kept, keeps, Watches, watchWasSet, ResultCode.isOk, he, ho, hw]

-- A call that failed leaves nothing registered, and no trace at all if it was refused. After any
-- other call, the answer tells what is registered besides.
theorem submit_enrolled (h : c.registry.Arises) (op : Operation) (o : CallOptions ε) :
    match submit op o c with
    | (.error e, c') =>
      c'.registry.completions = c.registry.completions ∧
        c'.registry.watchers = c.registry.watchers ∧
        (accept (op.watching o.hasWatcher) o.hasWatcher c = .error e ∧ e.isRefusal ∧ c' = c ∨
          accept (op.watching o.hasWatcher) o.hasWatcher c = .ok () ∧
            (Backend.issue c.registry.nextId (call op o) c.backend).1 = .error e)
    | (.ok reply, c') =>
      Enrolled op o reply c c' ∧
        (o.isAsync = false → c'.registry.completions = c.registry.completions) := by
  have b := h.bounded
  cases ha : accept (op.watching o.hasWatcher) o.hasWatcher c
  case error refusal =>
    rw [submit_rejected ha]
    exact ⟨rfl, rfl, .inl ⟨rfl, accept_error ha, rfl⟩⟩
  case ok =>
    rw [submit_accepted ha]
    simp only [b.enroll_eq]
    rcases hi : Backend.issue c.registry.nextId (call op o) c.backend with ⟨_ | result, backend⟩
    case error e => exact ⟨rfl, rfl, .inr ⟨trivial, rfl⟩⟩
    case ok =>
      rw [completionEntry_of_kept, watcherEntry_of_kept]
      refine ⟨⟨rfl, ⟨result, rfl, by rw [hi]⟩, rfl, rfl, rfl, ?_, ?_⟩, fun ho => ?_⟩
      case refine_1 =>
        rw [← completionEntry_isSome (op.watching o.hasWatcher) c.target, ← isSome_ite]
        exact Bool.eq_iff_iff.mp (b.hasCompletion_adding rfl)
      case refine_2 =>
        rw [← watcherEntry_isSome, ← isSome_ite]
        exact Bool.eq_iff_iff.mp (b.hasWatcher_adding rfl)
      case refine_3 => rw [completionEntry_of_sync ho, ite_self]; rfl

def fresh : Connection Memory (Callback Unit) :=
  .new ⟨"localhost", ["localhost"], none⟩ {} (.new 0) ⟨{ receiver := () }, none⟩

def reading : Connection Memory (Callback Unit) :=
  (submit (.get "/" false) { callback := some (), watcher := some () } (fresh.start ⟨0⟩).2.1).2

-- The next call watches for a node, at once.
theorem submit_enrolled_missing :
    reading.registry.Arises ∧
      ∃ reply c', submit (.exists "/x" false) { watcher := some () } reading = (.ok reply, c') ∧
        reply.id = ⟨2⟩ ∧ reply.rc = .noNode ∧ c'.registry.hasWatcher reply.id ∧
        c'.registry.completions = reading.registry.completions := by
  have started : (fresh.start ⟨0⟩).2.1.registry.Arises :=
    Connection.arises_start (c := fresh) .empty ⟨0⟩
  have arises : reading.registry.Arises := Connection.arises_submit started _ _
  have enrolled := submit_enrolled arises (.exists "/x" false) { watcher := some () }
  have answered : ((submit (.exists "/x" false) { watcher := some () } reading).1.toOption.map
      fun reply => (reply.id, reply.rc)) = some (⟨2⟩, .noNode) := by decide +kernel
  rcases hs : submit (.exists "/x" false) { watcher := some () } reading with ⟨_ | reply, c'⟩ <;>
    rw [hs] at answered enrolled
  case error => cases answered
  case ok =>
    have ⟨id, rc⟩ := Prod.mk.inj (Option.some.inj answered)
    have ⟨e, sync⟩ := enrolled
    exact ⟨arises, reply, c', rfl, id, rc, e.hasWatcher.mpr ⟨rfl, .inr ⟨rfl, rfl, rc⟩⟩, sync rfl⟩

end Client
end Coordination
