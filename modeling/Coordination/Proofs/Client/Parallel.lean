import Coordination.Proofs.Client.Confinement
import Coordination.Proofs.Memory.Parallel

namespace Coordination

def Callback.bare {ε : Type} (cb : Callback ε) : Callback ε :=
  { cb with stripping := none }

def Entry.bare {ε : Type} (e : Entry (Callback ε)) : Entry (Callback ε) :=
  { e with handler := e.handler.bare }

variable {ε : Type} {s s' : Seat}

-- A call of a handler, as it is seen from a seat.
def Seat.invocation (s : Seat) (i : Invocation (Callback ε)) : Invocation (Callback ε) :=
  ⟨i.kind, s.event i.event, i.entry.bare⟩

namespace Registry

variable {r r' : Registry (Callback ε)}

structure Alike (r r' : Registry (Callback ε)) : Prop where
  nextId : r'.nextId = r.nextId
  get?   : ∀ slot, (r'.get? slot).map Entry.bare = (r.get? slot).map Entry.bare

-- What is registered under the next identifier is alike, too.
theorem Alike.enroll {ce ce' we : Option (Entry (Callback ε))} {kept : Bool} (h : Alike r r')
    (hc : ce'.map Entry.bare = ce.map Entry.bare)
    (ha : ∀ slot : Slot, slot.isSingleUse → slot.id = r.nextId → r.get? slot = none)
    (ha' : ∀ slot : Slot, slot.isSingleUse → slot.id = r'.nextId → r'.get? slot = none)
    (hg : r.nextId.isGlobal = false) :
    Alike (r.enroll ce we kept) (r'.enroll ce' we kept) := by
  have hg' : r'.nextId.isGlobal = false := h.nextId ▸ hg
  constructor
  case nextId =>
    have hn : (r'.enroll ce' we kept).nextId.number = (r.enroll ce we kept).nextId.number := by
      rw [enroll_nextId, enroll_nextId, h.nextId]
    exact congrArg RequestId.mk hn
  case get? =>
    intro slot
    cases slot
    case completion id =>
      rw [get?_enroll_completion (ha _ rfl rfl), get?_enroll_completion (ha' _ rfl rfl), h.nextId]
      split
      case isFalse => exact h.get? _
      case isTrue  => cases kept <;> first | exact hc | rfl
    case watcher id =>
      rw [get?_enroll_watcher (ha _ (by simp [Slot.isSingleUse, hg]) rfl) hg,
        get?_enroll_watcher (ha' _ (by simp [Slot.isSingleUse, hg']) rfl) hg', h.nextId]
      split
      case isFalse => exact h.get? _
      case isTrue  => rfl

end Registry

theorem Client.completionEntry_bare (op : Operation) (target target' : Target)
    (o : CallOptions ε) :
    (completionEntry op target' o).map Entry.bare =
      (completionEntry op target o).map Entry.bare := by
  cases h : o.callback <;> simp [completionEntry, h, Entry.bare, Callback.bare]

-- The direct answers are the same, too.
theorem Memory.Same.result {x x' : Memory.Outcome × Memory} (h : Memory.Same s s' x x')
    (call : Call) : (call.result x'.1).rc = (call.result x.1).rc ∧
      s'.payload (call.result x'.1).payload = s.payload (call.result x.1).payload := by
  unfold Call.result
  cases call.mode
  case sync  => exact ⟨h.rc, h.payload⟩
  case async => exact ⟨rfl, rfl⟩

-- What outlives the session.
structure Memory.Rests (m m' : Memory) : Prop where
  nodes         : m'.nodes = m.nodes
  zxid          : m'.zxid = m.zxid
  sessionId     : m'.sessionId = m.sessionId
  holding       : m'.holding = m.holding
  connectOnInit : m'.connectOnInit = m.connectOnInit

namespace Memory.Rests

variable {m m' m'' : Memory}

theorem refl : Rests m m :=
  ⟨rfl, rfl, rfl, rfl, rfl⟩

theorem trans (h : Rests m m') (h' : Rests m' m'') : Rests m m'' :=
  ⟨h'.nodes.trans h.nodes, h'.zxid.trans h.zxid, h'.sessionId.trans h.sessionId,
    h'.holding.trans h.holding, h'.connectOnInit.trans h.connectOnInit⟩

theorem next {answer : Except Error Item} (h : m.next = some (answer, m')) : Rests m m' := by
  rcases next_cases h with ⟨_, _, _, _, rfl⟩ | ⟨_, rfl⟩
  · exact ⟨rfl, rfl, rfl, rfl, rfl⟩
  · exact refl

theorem stores {n n' : Memory} (h : Stores s s' m n) (hm : Rests m m') (hn : Rests n n') :
    Stores s s' m' n' := by
  constructor
  case tree          => rw [hm.nodes, hn.nodes]; exact h.tree
  case founded       => rw [hm.nodes]; exact h.founded
  case founded'      => rw [hn.nodes]; exact h.founded'
  case zxid          => rw [hm.zxid, hn.zxid]; exact h.zxid
  case sessionId     => rw [hm.sessionId, hn.sessionId]; exact h.sessionId
  case holding       => rw [hm.holding, hn.holding]; exact h.holding
  case connectOnInit => rw [hm.connectOnInit, hn.connectOnInit]; exact h.connectOnInit

end Memory.Rests

namespace Connection

open Memory (Rests)

variable {c c' : Connection Memory (Callback ε)} {e e' : Event}

theorem deliverOne_rests {records : List Record} (h : c.deliverOne = some (c', records)) :
    Rests c.backend c'.backend :=
  have ⟨_, hn⟩ := deliverOne_next h
  Rests.next hn

theorem deliverUpTo_rests (n : Nat) : Rests c.backend (deliverUpTo n c).1.backend :=
  deliverUpTo_keeps (P := fun x => Rests c.backend x.backend)
    (fun _ _ _ r h => r.trans <| deliverOne_rests h) n .refl

theorem stop_rests : Rests c.backend c.stop.2.1.backend := by
  unfold stop
  split
  case isTrue  => exact .refl
  case isFalse =>
    let woken := { c with running := false, backend := Backend.wake c.backend }
    have h₁ : Rests c.backend woken.backend := ⟨rfl, rfl, rfl, rfl, rfl⟩
    have h₂ : Rests c.backend c.quiesce.1.backend := by
      refine h₁.trans ?_
      simp only [quiesce, enqueue_backend]
      exact deliverUpTo_rests (c := woken) _
    simp only [release]
    split
    case isTrue  => exact h₂
    case isFalse => exact h₂.trans ⟨rfl, rfl, rfl, rfl, rfl⟩

structure Parallel (s s' : Seat) (c c' : Connection Memory (Callback ε)) : Prop where
  target     : c.target = s.target
  target'    : c'.target = s'.target
  global     : c'.global = c.global
  backend    : Memory.Parallel s s' c.backend c'.backend
  registry   : Registry.Alike c.registry c'.registry
  queue      : c'.queue.map (·.toList.map s'.item) = c.queue.map (·.toList.map s.item)
  delivering : c'.delivering = c.delivering

namespace Parallel

theorem withBackend {m m' : Memory} (p : Parallel s s' c c') (h : Memory.Parallel s s' m m') :
    Parallel s s' { c with backend := m } { c' with backend := m' } :=
  { p with backend := h }

theorem delivered (p : Parallel s s' c c') (h : c.Sound) (h' : c'.Sound) :
    Parallel s s' ((c.deliverOne.map (·.1)).getD c) ((c'.deliverOne.map (·.1)).getD c') := by
  obtain ⟨q, hq⟩ := Option.isSome_iff_exists.mp h.queue
  obtain ⟨q', hq'⟩ := Option.isSome_iff_exists.mp h'.queue
  have hqs := p.queue
  rw [hq, hq', Option.map_some, Option.map_some, Option.some.injEq] at hqs
  obtain ⟨items, hi⟩ := Option.isSome_iff_exists.mp h.isOpen.channel
  cases hd : c.delivering
  case false =>
    have hd' := p.delivering.trans hd
    simp only [deliverOne, hd, hd']
    exact p
  case true =>
    have hd' := p.delivering.trans hd
    cases items
    case nil =>
      have hc := p.backend.channel
      rw [hi] at hc
      obtain ⟨items', hi', hc⟩ := Option.map_eq_some_iff.mp hc
      cases List.map_eq_nil_iff.mp hc
      rw [deliverOne_nil h.isOpen hi, deliverOne_nil h'.isOpen hi']
      exact p
    case cons item rest =>
      obtain ⟨item', rest', hi', he, hb⟩ := p.backend.uncons hi
      cases item <;> cases item' <;> simp only [Seat.item, reduceCtorEq, Item.event.injEq] at he
      case shutdown.shutdown =>
        rw [deliverOne_shutdown hd h.isOpen hi, deliverOne_shutdown hd' h'.isOpen hi']
        exact { p with backend := hb, delivering := rfl }
      case event.event =>
        rw [deliverOne_event hd h.isOpen hi hq, deliverOne_event hd' h'.isOpen hi' hq']
        refine { p with backend := hb, queue := ?_ }
        simp [hqs, Seat.item, he]

theorem nextEvent (p : Parallel s s' c c') (h : c.Sound) (h' : c'.Sound) :
    c'.nextEvent.1.map s'.event = c.nextEvent.1.map s.event ∧
      Parallel s s' c.nextEvent.2 c'.nextEvent.2 := by
  obtain ⟨q, hq⟩ := Option.isSome_iff_exists.mp h.queue
  obtain ⟨q', hq'⟩ := Option.isSome_iff_exists.mp h'.queue
  have hqs := p.queue
  rw [hq, hq', Option.map_some, Option.map_some, Option.some.injEq] at hqs
  have hr : (!c.running) = false := by simp [h.running]
  have hr' : (!c'.running) = false := by simp [h'.running]
  simp only [Connection.nextEvent, hr, hr', hq, hq', Bool.false_eq_true, if_false]
  cases hl : q.toList
  case nil =>
    rw [hl] at hqs
    obtain ⟨h₁, h₂⟩ := Queue.popEvent_nil hl
    obtain ⟨h₁', h₂'⟩ := Queue.popEvent_nil (List.map_eq_nil_iff.mp hqs)
    exact ⟨by rw [h₁, h₁']; rfl, { p with queue := by simp [h₂, h₂'] }⟩
  case cons item rest =>
    rw [hl] at hqs
    obtain ⟨item', rest', hl', he, hrest⟩ := List.map_eq_cons_iff.mp hqs
    obtain ⟨h₁, h₂⟩ := Queue.popEvent_cons hl
    obtain ⟨h₁', h₂'⟩ := Queue.popEvent_cons hl'
    refine ⟨?_, { p with queue := by simp [h₂, h₂', hrest] }⟩
    rw [h₁, h₁']
    cases item <;> cases item' <;> simp only [Seat.item, reduceCtorEq, Item.event.injEq] at he
    case event.event       => exact congrArg some he
    case shutdown.shutdown => rfl

theorem started_call {kind : CallKind} (entry entry' : Option (Entry (Callback ε)))
    (he : s'.event e' = s.event e) (h : entry'.map Entry.bare = entry.map Entry.bare) :
    (entry'.map (⟨kind, e', ·⟩)).map s'.invocation =
      (entry.map (⟨kind, e, ·⟩)).map s.invocation := by
  have seen (s : Seat) (e : Event) (entry : Option (Entry (Callback ε))) :
      (entry.map (⟨kind, e, ·⟩)).map s.invocation =
        (entry.map Entry.bare).map (⟨kind, s.event e, ·⟩) := by
    cases entry <;> rfl
  rw [seen, seen, he, h]

theorem start (p : Parallel s s' c c') (he : s'.event e' = s.event e) :
    (c'.enter e').1.map s'.invocation = (c.enter e).1.map s.invocation := by
  have hg : ∀ slot, (c'.dispatcher.registry.get? slot).map Entry.bare =
    (c.dispatcher.registry.get? slot).map Entry.bare := p.registry.get?
  rw [enter_fst, enter_fst]
  cases e <;> cases e' <;>
    simp only [Seat.event, reduceCtorEq, Event.completion.injEq, Event.watch.injEq] at he
  case completion.completion b b' =>
    have hid := congrArg CompletionEvent.id he
    change b'.id = b.id at hid
    rw [Dispatcher.start_completion, Dispatcher.start_completion, hid]
    exact started_call _ _ (congrArg Event.completion he) (hg _)
  case watch.watch w w' =>
    subst he
    rw [Dispatcher.start_watch, Dispatcher.start_watch]
    have hw := hg (.watcher w'.id)
    cases h₁ : c.dispatcher.registry.get? (.watcher w'.id) <;>
      cases h₂ : c'.dispatcher.registry.get? (.watcher w'.id) <;>
      simp only [h₁, h₂, Option.map_none, Option.map_some, reduceCtorEq] at hw ⊢
    case some.some => exact started_call (some _) (some _) rfl hw
    case none.none =>
      split
      case isFalse => rfl
      case isTrue  => exact started_call _ _ rfl (hg _)

-- Which entries the call takes out.
def takes (e : Event) (slot : Slot) (i : Invocation (Callback ε)) : Bool :=
  i.consumes slot || i.entry.handler.forgets e slot

theorem takes_seen (slot : Slot) (i : Invocation (Callback ε)) :
    takes (s.event e) slot (s.invocation i) = takes e slot i := by
  obtain ⟨kind, event, ⟨⟨_, _, watching⟩, _⟩⟩ := i
  cases e <;> cases event <;> cases watching <;> rfl

theorem enter (p : Parallel s s' c c') (he : s'.event e' = s.event e) :
    Parallel s s' (c.enter e).2 (c'.enter e').2 := by
  have hs := c.enter_snd (e := e)
  have hs' := c'.enter_snd (e := e')
  have hr : Registry.Alike (c.enter e).2.registry (c'.enter e').2.registry := by
    refine ⟨by rw [enter_nextId, enter_nextId, p.registry.nextId], fun slot => ?_⟩
    have seen (s : Seat) (e : Event) (i : Option (Invocation (Callback ε))) :
        i.any (takes e slot) = (i.map s.invocation).any (takes (s.event e) slot) := by
      cases i <;> simp [takes_seen]
    have ht : (c'.enter e').1.any (takes e' slot) = (c.enter e).1.any (takes e slot) := by
      rw [seen s' e', p.start he, he, ← seen s e]
    rw [get?_enter, get?_enter]
    change Option.map _ (if (c'.enter e').1.any (takes e' slot) then none else _) =
      Option.map _ (if (c.enter e).1.any (takes e slot) then none else _)
    rw [ht]
    split
    case isTrue  => rfl
    case isFalse => exact p.registry.get? slot
  rw [hs, hs']
  exact { p with registry := hr }

theorem leave {i i' : Invocation (Callback ε)} (p : Parallel s s' c c')
    (hi : ∀ slot, i.rearms slot = false) (hi' : ∀ slot, i'.rearms slot = false)
    (outcome : Outcome) :
    Parallel s s' (c.leave i outcome) (c'.leave i' outcome) := by
  refine { p with registry := ?_ }
  have hr : (c.leave i outcome).registry = c.registry := Dispatcher.finish_registry hi outcome
  have hr' : (c'.leave i' outcome).registry = c'.registry := Dispatcher.finish_registry hi' outcome
  rw [hr, hr']
  exact p.registry

theorem accept (p : Parallel s s' c c') (h : c.Sound) (h' : c'.Sound) (op : Operation)
    (hasWatcher : Bool) : Client.accept op hasWatcher c' = Client.accept op hasWatcher c := by
  have hs : Backend.state c'.backend = Backend.state c.backend := p.backend.state
  have ho : c'.assertOpen = c.assertOpen := by
    simp only [assertOpen, h.running, h.closed, h'.running, h'.closed, hs]
  simp only [Client.accept, ho]

-- What the reply says, seen from the seat of the client.
theorem reply_seen {m : Memory} {op : Operation} {o : CallOptions ε} {id id' : RequestId} :
    let call := Client.call op o
    let result := call.result (m.execute id call.op).1
    (Client.reply call.op id' s.target result).since s.depth =
      ⟨id', result.rc, s.payload result.payload⟩ := by
  intro call result
  cases hc : call.op.isCreate
  case true  => simp only [Client.reply, hc, if_true]; rfl
  case false =>
    have hn (path : String) : result.payload ≠ .string (some path) := by
      intro h
      simp only [result, Call.result] at h
      split at h
      case h_2 => cases h
      case h_1 =>
        have he := (m.execute_effect id call.op).isCreate_of_string h
        rw [hc] at he
        cases he
    have hs : result.payload.strip s.target = result.payload := by
      unfold Payload.strip
      split
      case h_1 path h => exact absurd h (hn path)
      case h_2        => rfl
    simp only [Client.reply, hc, Bool.false_eq_true, if_false, Seat.payload, hs]
    rfl

theorem submit {op : Operation} {o : CallOptions ε} (p : Parallel s s' c c') (h : c.Sound)
    (h' : c'.Sound) (hop : (Client.call op o).op.IsRegular) :
    (Client.submit op o c').1.map (·.since s'.depth) =
        (Client.submit op o c).1.map (·.since s.depth) ∧
      Parallel s s' (Client.submit op o c).2 (Client.submit op o c').2 := by
  have hac := p.accept h h' (op.watching o.hasWatcher) o.hasWatcher
  cases ha : Client.accept (op.watching o.hasWatcher) o.hasWatcher c
  case error =>
    rw [Client.submit_rejected ha, Client.submit_rejected (hac.trans ha)]
    exact ⟨rfl, p⟩
  case ok =>
    have hs := (h.submit_eq ha).left
    have hs' := (h'.submit_eq (hac.trans ha)).left
    have hid := p.registry.nextId
    have hl : Memory.Parallel s s' (c.backend.logged c.registry.nextId (Client.call op o))
        (c'.backend.logged c.registry.nextId (Client.call op o)) := { p.backend with }
    have same := hl.toRealms.execute hop c.registry.nextId
    have hx := hl.execute hop c.registry.nextId
    obtain ⟨hrc, hp⟩ := same.result (Client.call op o)
    rw [hid] at hs'
    rw [hs, hs', p.target, p.target']
    refine ⟨?_, ?_⟩
    case refine_1 => simp only [Except.map, reply_seen, hrc, hp]
    case refine_2 =>
      constructor
      case target     => rfl
      case target'    => rfl
      case global     => exact p.global
      case queue      => exact p.queue
      case delivering => exact p.delivering
      case backend    => exact hx.answered _ same.rc same.payload same.fired
      case registry   =>
        have hk : Client.kept (Client.call op o).op o (.ok _) = Client.kept _ o (.ok _) :=
          congrArg (Client.keeps (Client.call op o).op o) hrc
        change Registry.Alike (c.registry.enroll _ _ _) (c'.registry.enroll _ _ _)
        rw [hk]
        exact p.registry.enroll (Client.completionEntry_bare ..) (fun _ => h.balanced.absent)
          (fun _ => h'.balanced.absent) h.balanced.isGlobal_nextId

theorem started (hb : Memory.Parallel s s' (c.backend.init s.target) (c'.backend.init s'.target))
    (ht : c.target = s.target) (ht' : c'.target = s'.target) (hg : c'.global = c.global)
    (hn : c'.registry.nextId = c.registry.nextId) : Parallel s s' c.started c'.started where
  target     := ht
  target'    := ht'
  global     := hg
  backend    := by simpa only [Connection.started, ht, ht'] using hb
  queue      := rfl
  delivering := rfl
  registry   := by
    refine ⟨hn, fun slot => ?_⟩
    change ((c'.registry.clear c'.global).2.get? slot).map _ =
      ((c.registry.clear c.global).2.get? slot).map _
    rw [Registry.get?_clear, Registry.get?_clear, hg]

theorem restart (p : Parallel s s' c c') (timeout : Duration) :
    Parallel s s' (c.restart timeout).2.1 (c'.restart timeout).2.1 := by
  have k : Kin c c.stop.2.1 := stop_kin
  have k' : Kin c' c'.stop.2.1 := stop_kin
  have hd : c.stop.2.1.registry = c.registry := congrArg Dispatcher.registry stop_dispatcher
  have hd' : c'.stop.2.1.registry = c'.registry := congrArg Dispatcher.registry stop_dispatcher
  rw [restart_eq, restart_eq]
  refine started ?_ (k.target.trans p.target) (k'.target.trans p.target') ?_ ?_
  case refine_1 => exact (stop_rests.stores p.backend.toStores stop_rests).restart
  case refine_2 => rw [k.global, k'.global, p.global]
  case refine_3 => rw [hd, hd', p.registry.nextId]

end Parallel
end Connection
end Coordination
