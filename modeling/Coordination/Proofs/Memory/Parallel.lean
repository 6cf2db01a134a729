import Coordination.Proofs.Memory.Lasting
import Coordination.Proofs.Memory.Relocation

namespace Coordination

open Coordination.Path

namespace Memory

variable {s s' : Seat} {m m' : Memory} {id : RequestId}

structure Parallel (s s' : Seat) (m m' : Memory) : Prop extends Realms s s' m m' where
  state   : m'.state = m.state
  channel : m'.channel.map (·.map s'.item) = m.channel.map (·.map s.item)
  held    : m'.held.map s'.completion = m.held.map s.completion

namespace Parallel

variable {e e' : Event} {c c' : CompletionEvent} {cs cs' : List CompletionEvent}
  {item item' : Item} {items items' : List Item} {outcome outcome' : Outcome}

theorem withChannel (h : Parallel s s' m m') (hc : items'.map s'.item = items.map s.item) :
    Parallel s s' { m with channel := some items } { m' with channel := some items' } :=
  { h with channel := congrArg some hc }

theorem emit (h : Parallel s s' m m') (he : s'.event e' = s.event e) :
    Parallel s s' (m.emit e) (m'.emit e') := by
  refine { h with channel := ?_ }
  have hc := h.channel
  have hi : s'.item (.event e') = s.item (.event e) := congrArg Item.event he
  change (m'.channel.map (· ++ [_])).map _ = (m.channel.map (· ++ [_])).map _
  cases hm : m.channel <;> cases hm' : m'.channel <;> simp [hm, hm'] at hc ⊢
  exact ⟨hc, hi⟩

theorem emitWatches (h : Parallel s s' m m') (ws : List WatchEvent) :
    Parallel s s' (m.emitWatches ws) (m'.emitWatches ws) := by
  induction ws generalizing m m'
  case nil          => exact h
  case cons w ws ih =>
    have he : s'.event (.watch w) = s.event (.watch w) := rfl
    exact ih (h.emit he)

theorem emitAll (h : Parallel s s' m m') (hc : cs'.map s'.completion = cs.map s.completion) :
    Parallel s s' (cs.foldl (fun m c => m.emit (.completion c)) m)
      (cs'.foldl (fun m c => m.emit (.completion c)) m') := by
  induction cs generalizing m m' cs'
  case nil =>
    cases List.map_eq_nil_iff.mp hc
    exact h
  case cons c cs ih =>
    obtain ⟨c', rest, rfl, hc', hcs⟩ := List.map_eq_cons_iff.mp hc
    have he : s'.event (.completion c') = s.event (.completion c) := congrArg Event.completion hc'
    have p := ih (h.emit he) hcs
    exact p

theorem complete (h : Parallel s s' m m') (hc : s'.completion c' = s.completion c) :
    Parallel s s' (m.complete c) (m'.complete c') := by
  have he : s'.event (.completion c') = s.event (.completion c) := congrArg Event.completion hc
  unfold Memory.complete
  by_cases hb : m.holding
  case neg => rw [if_neg hb, if_neg (h.holding ▸ hb)]; exact h.emit he
  case pos =>
    rw [if_pos hb, if_pos (h.holding ▸ hb)]
    refine { h with held := ?_ }
    simp only [List.map_append, List.map_cons, List.map_nil, h.held, hc]

theorem answered (h : Parallel s s' m m') (call : Call) (hr : outcome'.rc = outcome.rc)
    (hp : s'.payload outcome'.payload = s.payload outcome.payload)
    (hf : outcome'.fired = outcome.fired) :
    Parallel s s' (m.answered id call outcome) (m'.answered id call outcome') := by
  unfold Memory.answered
  rw [hf, hr]
  cases call.mode
  case sync  => exact h.emitWatches _
  case async =>
    refine (h.emitWatches _).complete ?_
    simp only [Seat.completion, hp]

theorem execute {op : Operation} (h : Parallel s s' m m') (hop : op.IsRegular) (id : RequestId) :
    Parallel s s' (m.execute id op).2 (m'.execute id op).2 := by
  have e := m.execute_executes id op
  have e' := m'.execute_executes id op
  exact { (h.toRealms.execute hop id).realms with
    state   := e'.state.trans (h.state.trans e.state.symm)
    channel := e'.channel ▸ e.channel ▸ h.channel
    held    := e'.held ▸ e.held ▸ h.held }

theorem setState (h : Parallel s s' m m') (state : ConnectionState) :
    Parallel s s' (m.setState state) (m'.setState state) := by
  have p : Parallel s s' { m with state := state } { m' with state := state } :=
    { h with state := rfl }
  have he : s'.event (.watch (.session state)) = s.event (.watch (.session state)) := rfl
  exact p.emit he

theorem hold (h : Parallel s s' m m') (on : Bool) :
    Parallel s s' { m with holding := on } { m' with holding := on } :=
  { h with holding := rfl }

theorem connect (h : Parallel s s' m m') (on : Bool) :
    Parallel s s' { m with connectOnInit := on } { m' with connectOnInit := on } :=
  { h with connectOnInit := rfl }

theorem release (h : Parallel s s' m m') (id : RequestId) :
    Parallel s s' (m.release id).2 (m'.release id).2 := by
  have hp (s : Seat) : (fun c : CompletionEvent => decide (c.id = id)) ∘ s.completion =
      fun c => decide (c.id = id) := rfl
  have hf := congrArg (List.find? (·.id = id)) h.held
  have he := congrArg (List.eraseP (·.id = id)) h.held
  simp only [List.find?_map, List.eraseP_map, hp] at hf he
  unfold Memory.release
  cases hm : m.held.find? (·.id = id) <;> cases hm' : m'.held.find? (·.id = id) <;>
    simp only [hm, hm', Option.map_none, Option.map_some, reduceCtorEq, Option.some.injEq] at hf
  case none.none => exact h
  case some.some =>
    exact emit { h with held := he } (congrArg Event.completion hf)

theorem releaseAll (h : Parallel s s' m m') :
    Parallel s s' m.releaseAll.2 m'.releaseAll.2 := by
  have p : Parallel s s' { m with held := [] } { m' with held := [] } := { h with held := rfl }
  exact p.emitAll h.held

-- The oldest items of the streams look the same.
theorem uncons (h : Parallel s s' m m') (hc : m.channel = some (item :: items)) :
    ∃ item' items', m'.channel = some (item' :: items') ∧ s'.item item' = s.item item ∧
      Parallel s s' { m with channel := some items } { m' with channel := some items' } := by
  have hm := h.channel
  rw [hc] at hm
  obtain ⟨_, hc', hm⟩ := Option.map_eq_some_iff.mp hm
  obtain ⟨item', items', rfl, hi, hr⟩ := List.map_eq_cons_iff.mp hm
  exact ⟨item', items', hc', hi, h.withChannel hr⟩

end Parallel

theorem prepared_eq (s : Seat) :
    m.prepared s.target =
      (descend [] s.base).foldl (fun m p => m.ensureNode p) (m.blank s.target) := by
  have hc := s.chroot
  unfold prepared
  split at hc
  case isTrue hb  => rw [hc, hb]; rfl
  case isFalse hb => rw [hc, ← steps_join s.proper]; rfl

-- A session that begins on two services that agree.
theorem Stores.init (h : Stores s s' (m.prepared s.target) (m'.prepared s'.target)) :
    Parallel s s' (m.init s.target) (m'.init s'.target) := by
  have ⟨nodes, zxid, hm⟩ := m.prepared_keeps s.target
  have ⟨nodes', zxid', hm'⟩ := m'.prepared_keeps s'.target
  have hc := h.connectOnInit
  rw [init_eq, init_eq, hc]
  have p (state : ConnectionState) :
      Parallel s s' { m.prepared s.target with state := state }
        { m'.prepared s'.target with state := state } := by
    rw [hm, hm'] at h ⊢
    exact { h with
      target := rfl, target' := rfl, dataWatches := fun _ _ => rfl, childWatches := fun _ _ => rfl
      state := rfl, channel := rfl, held := rfl }
  split
  case isTrue  => exact (p .connected).setState .connected
  case isFalse => exact p .connecting

-- The root of the client is there already.
theorem prepared_founded (h : s.Founded m.nodes) : m.prepared s.target = m.blank s.target := by
  have hs : s.Founded (m.blank s.target).nodes := h.sweep
  rw [prepared_eq]
  refine ensureAll_of_mem fun p hp => ?_
  obtain ⟨q, hq, _, rfl⟩ := mem_descend (a := []) hp
  exact hs.mem hq

theorem Stores.restart (h : Stores s s' m m') :
    Parallel s s' (m.init s.target) (m'.init s'.target) := by
  refine Stores.init ?_
  rw [prepared_founded h.founded, prepared_founded h.founded']
  exact { h with
    tree := h.tree.sweep, founded := h.founded.sweep, founded' := h.founded'.sweep
    sessionId := congrArg (· + 1) h.sessionId }

-- The nodes of a path were made one by one, and there are no others.
structure Raised (m₀ : Memory) (p : List (List Char)) (m : Memory) : Prop where
  eq    : m = { m₀ with nodes := m.nodes, zxid := m.zxid }
  zxid  : m.zxid = p.length
  nodes : ∀ a, Proper a → m.nodes[join a]? =
    if a <+: p then some (.new ByteArray.empty Acl.openUnsafe a.length 0 m₀.clock) else none

namespace Raised

variable {m₀ : Memory} {p q : List (List Char)} {x : List Char}

theorem step (h : Raised m₀ p m) (hp : Proper (p ++ [x])) :
    Raised m₀ (p ++ [x]) (m.ensureNode (join (p ++ [x]))) := by
  have hn : join (p ++ [x]) ∉ m.nodes := by
    rw [Tree.mem_iff, h.nodes _ hp, if_neg]
    · exact Bool.false_ne_true
    · intro hx
      have hl := hx.length_le
      rw [List.length_append, List.length_singleton] at hl
      omega
  have hc : m.clock = m₀.clock := by rw [h.eq]
  rw [ensureNode, if_neg hn]
  refine ⟨by rw [h.eq], by simp [h.zxid], fun a ha => ?_⟩
  simp only [Tree.getElem?_put, join_inj ha hp, List.prefix_concat_iff, h.nodes a ha, hc]
  by_cases he : a = p ++ [x]
  case neg => simp [he]
  case pos => subst he; simp [h.zxid]

-- Induction on the segments that are still to come.
theorem steps (h : Raised m₀ p m) (hp : Proper (p ++ q)) :
    Raised m₀ (p ++ q) ((descend (spell p) q).foldl (fun m p => m.ensureNode p) m) := by
  induction q generalizing p m
  case nil => rw [List.append_nil]; exact h
  case cons x q ih =>
    have hx : p ++ x :: q = p ++ [x] ++ q := List.append_cons ..
    rw [hx] at hp ⊢
    rw [descend_cons]
    exact ih (h.step (proper_append.mp hp).left) hp

theorem founded (h : Raised m₀ s.base m) : s.Founded m.nodes := by
  intro p hp
  exact ⟨_, (h.nodes p (s.proper.of_prefix hp)).trans (if_pos hp), rfl⟩

theorem at_path {a : List (List Char)} (h : Raised m₀ s.base m) (ha : Proper a) :
    m.nodes[s.path a]?.map (·.since s.depth) =
      if a = [] then some (.new ByteArray.empty Acl.openUnsafe 0 0 0) else none := by
  rw [Seat.path, h.nodes _ (Seat.proper_path ha)]
  by_cases hn : a = []
  case pos =>
    subst hn
    rw [List.append_nil, if_pos List.prefix_rfl, if_pos rfl, Option.map_some, Node.since_new,
      Seat.depth, Int.sub_self]
  case neg =>
    have : ¬s.base ++ a <+: s.base := fun hp => by
      have hl := hp.length_le
      have := List.length_pos_iff.mpr hn
      rw [List.length_append] at hl
      omega
    rw [if_neg this, if_neg hn]
    rfl

end Raised

-- A service that has not been used yet.
def fresh (clock : Int) (connects : Bool) : Memory :=
  { new clock with connectOnInit := connects }

theorem fresh_raised (s : Seat) (clock : Int) (connects : Bool) :
    Raised ((fresh clock connects).blank s.target) s.base
      ((fresh clock connects).prepared s.target) := by
  rw [prepared_eq]
  refine Raised.steps (p := []) ⟨rfl, rfl, fun a ha => ?_⟩ s.proper
  change (Tree.sweep ((∅ : Tree).insert "/" _))[join a]? = _
  rw [Tree.getElem?_sweep, Tree.getElem?_put]
  simp only [List.prefix_nil, join_eq_root ha]
  by_cases hn : a = []
  case pos => subst hn; rfl
  case neg => simp [hn]

theorem fresh_parallel (s s' : Seat) (clock clock' : Int) (connects : Bool) :
    Parallel s s' ((fresh clock connects).init s.target)
      ((fresh clock' connects).init s'.target) := by
  have r := fresh_raised s clock connects
  have r' := fresh_raised s' clock' connects
  refine Stores.init ?_
  constructor
  case tree      => exact fun a ha => (r'.at_path ha).trans (r.at_path ha).symm
  case founded   => exact r.founded
  case founded'  => exact r'.founded
  case zxid      => rw [r.zxid, r'.zxid, Seat.depth, Seat.depth, Int.sub_self, Int.sub_self]
  case sessionId => rw [r.eq, r'.eq]; rfl
  case holding   => rw [r.eq, r'.eq]; rfl
  case connectOnInit => rw [r.eq, r'.eq]; rfl

end Memory
end Coordination
