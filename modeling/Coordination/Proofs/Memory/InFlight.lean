import Coordination.Proofs.Memory.Watches

namespace Coordination

open scoped List

-- The completion by which an asynchronous call is answered.
def Call.answer (id : RequestId) (call : Call) (outcome : Memory.Outcome) : List Event :=
  match call.mode with
  | .sync => []
  | .async => [.completion ⟨id, outcome.rc, some call.op.path, outcome.payload⟩]

-- The direct answer to a call.
def Call.result (call : Call) (outcome : Memory.Outcome) : CallResult :=
  match call.mode with
  | .sync => ⟨outcome.rc, outcome.payload⟩
  | .async => ⟨.ok, .none⟩

namespace Memory

variable {m m' m'' : Memory} {es es' : List Event}

def inFlight (m : Memory) : List Event :=
  m.held.map .completion ++ (m.channel.getD []).filterMap Item.event?

-- There is a session, and a stream to put events on.
structure IsOpen (m : Memory) : Prop where
  channel : m.channel.isSome
  handle  : m.handleClosed = false

-- Nothing but events has been added.
structure Sends (m m' : Memory) (es : List Event) : Prop where
  isOpen   : m'.IsOpen
  inFlight : m'.inFlight ~ m.inFlight ++ es
  watched  : m'.watched = m.watched
  calls    : m'.calls = m.calls

namespace Sends

theorem refl (h : m.IsOpen) : Sends m m [] where
  isOpen   := h
  inFlight := by simp
  watched  := rfl
  calls    := rfl

theorem trans (s : Sends m m' es) (s' : Sends m' m'' es') : Sends m m'' (es ++ es') where
  isOpen   := s'.isOpen
  inFlight := by
    rw [← List.append_assoc]
    exact s'.inFlight.trans <| s.inFlight.append_right es'
  watched  := s'.watched.trans s.watched
  calls    := s'.calls.trans s.calls

end Sends

theorem emit_sends (h : m.IsOpen) (e : Event) : Sends m (m.emit e) [e] := by
  have ⟨items, hc⟩ := Option.isSome_iff_exists.mp h.channel
  constructor
  case isOpen   => exact ⟨by simp [emit, send, hc], h.handle⟩
  case inFlight => simp [emit, send, inFlight, hc, Item.event?]
  all_goals rfl

theorem emitWatches_sends (h : m.IsOpen) (ws : List WatchEvent) :
    Sends m (m.emitWatches ws) (ws.map .watch) := by
  induction ws generalizing m
  case nil => exact .refl h
  case cons w ws ih =>
    have s := emit_sends h (.watch w)
    exact s.trans (ih s.isOpen)

theorem emitAll_sends (h : m.IsOpen) (cs : List CompletionEvent) :
    Sends m (cs.foldl (fun m c => m.emit (.completion c)) m) (cs.map .completion) := by
  induction cs generalizing m
  case nil => exact .refl h
  case cons c cs ih =>
    have s := emit_sends h (.completion c)
    exact s.trans (ih s.isOpen)

theorem complete_sends (h : m.IsOpen) (c : CompletionEvent) :
    Sends m (m.complete c) [.completion c] := by
  unfold complete
  split
  case isFalse => exact emit_sends h _
  case isTrue =>
    refine ⟨⟨h.channel, h.handle⟩, ?_, rfl, rfl⟩
    simp only [inFlight, List.map_append, List.append_assoc]
    exact List.perm_append_comm.append_left _

theorem setState_sends (h : m.IsOpen) (state : ConnectionState) :
    Sends m (m.setState state) [.watch (.session state)] := by
  have h' : IsOpen { m with state := state } := ⟨h.channel, h.handle⟩
  have s := emit_sends h' (.watch (.session state))
  exact ⟨s.isOpen, s.inFlight, rfl, rfl⟩

theorem hold_sends (h : m.IsOpen) (on : Bool) : Sends m { m with holding := on } [] :=
  ⟨⟨h.channel, h.handle⟩, .of_eq (List.append_nil _).symm, rfl, rfl⟩

theorem connectOnInit_sends (h : m.IsOpen) (on : Bool) :
    Sends m { m with connectOnInit := on } [] :=
  ⟨⟨h.channel, h.handle⟩, .of_eq (List.append_nil _).symm, rfl, rfl⟩

theorem clock_sends (h : m.IsOpen) (now : Int) : Sends m { m with clock := now } [] :=
  ⟨⟨h.channel, h.handle⟩, .of_eq (List.append_nil _).symm, rfl, rfl⟩

theorem release_sends (h : m.IsOpen) (id : RequestId) : Sends m (m.release id).2 [] := by
  unfold release
  split
  case h_1 => exact .refl h
  case h_2 c hc =>
    have ⟨hid, before, after, hh, hb⟩ := List.find?_eq_some_iff_append.mp hc
    have he : m.held.eraseP (·.id = id) = before ++ after := by
      rw [hh, List.eraseP_append_right _ (by simpa using hb),
        List.eraseP_cons_of_pos (by simpa using hid)]
    have h' : IsOpen { m with held := before ++ after } := ⟨h.channel, h.handle⟩
    have s := emit_sends h' (.completion c)
    rw [he]
    refine ⟨s.isOpen, s.inFlight.trans ?_, rfl, rfl⟩
    simp only [inFlight, hh, List.append_nil, List.map_append, List.map_cons, List.append_assoc]
    refine List.Perm.append_left _ ?_
    rw [← List.append_assoc, List.cons_append]
    exact List.perm_append_comm

theorem releaseAll_sends (h : m.IsOpen) : Sends m m.releaseAll.2 [] := by
  have h' : IsOpen { m with held := [] } := ⟨h.channel, h.handle⟩
  have s := emitAll_sends h' m.held
  refine ⟨s.isOpen, s.inFlight.trans ?_, s.watched, s.calls⟩
  simp only [inFlight, List.map_nil, List.nil_append, List.append_nil]
  exact List.perm_append_comm

-- While there is a session, the stream hands out its oldest item or nothing.
theorem next_nil (h : m.IsOpen) (hc : m.channel = some []) : Backend.next m = none := by
  change m.next = none
  rw [next, if_neg (by simp [h.handle]), hc]

theorem next_cons {item : Item} {rest : List Item} (h : m.IsOpen)
    (hc : m.channel = some (item :: rest)) :
    Backend.next m = some (.ok item, { m with channel := some rest }) := by
  change m.next = _
  rw [next, if_neg (by simp [h.handle]), hc]

theorem ensurePath_executes (path : String) : Executes m (m.ensurePath path) [] [] := by
  have h (m : Memory) (path : String) : Executes m (m.ensureNode path) [] [] := by
    unfold ensureNode
    split
    case isTrue  => exact .refl
    case isFalse => exact nodes_executes _ _
  unfold ensurePath
  induction Path.steps path generalizing m
  case nil             => exact .refl
  case cons p steps ih => exact h m p |>.trans ih

def blank (target : Target) (m : Memory) : Memory :=
  { m with
    sessionId := m.sessionId + 1
    handleClosed := false
    channel := some []
    target := some target
    dataWatches := []
    childWatches := []
    held := []
    nodes := m.nodes.sweep }

def prepared (target : Target) (m : Memory) : Memory :=
  match target.chroot with
  | none => m.blank target
  | some chroot => (m.blank target).ensurePath chroot

theorem prepared_executes (target : Target) :
    Executes (m.blank target) (m.prepared target) [] [] := by
  unfold prepared
  split
  case h_1 => exact .refl
  case h_2 => exact ensurePath_executes _

theorem init_eq (target : Target) :
    m.init target =
      if (m.prepared target).connectOnInit then (m.prepared target).setState .connected
      else { m.prepared target with state := .connecting } := by
  unfold init prepared
  cases target.chroot <;> rfl

-- Nothing but events is on the stream of a session that has just begun.
theorem init_channel (target : Target) :
    ∃ events : List Event, (m.init target).channel = some (events.map .event) := by
  have hc : (m.prepared target).channel = some [] := (m.prepared_executes target).channel
  rw [init_eq]
  split
  case isFalse => exact ⟨[], hc⟩
  case isTrue  => exact ⟨[.watch (.session .connected)], by simp [setState, emit, send, hc]⟩

-- A session begins with no watch, and with nothing in flight but the notice that it is there.
theorem init_fresh (target : Target) :
    (m.init target).IsOpen ∧ (m.init target).watched = [] ∧
      ∀ e ∈ (m.init target).inFlight, e = .watch (.session .connected) := by
  have he := m.prepared_executes target
  have hc : (m.prepared target).channel = some [] := he.channel
  have ho : (m.prepared target).IsOpen := ⟨by simp [hc], he.handleClosed⟩
  have hf : (m.prepared target).inFlight = [] := by simp [inFlight, he.held, hc, blank]
  have hw : (m.prepared target).watched = [] := by simpa [watched, blank] using he.watched
  rw [init_eq]
  split
  case isFalse => exact ⟨⟨ho.channel, ho.handle⟩, hw, fun e h => absurd (hf ▸ h) List.not_mem_nil⟩
  case isTrue =>
    have s := setState_sends ho .connected
    have hn := s.inFlight
    rw [hf, List.nil_append, List.perm_singleton] at hn
    exact ⟨s.isOpen, s.watched.trans hw, fun e h => List.mem_singleton.mp (hn ▸ h)⟩

-- The service has carried out a call.
structure Answers (id : RequestId) (call : Call) (outcome : Outcome) (m m' : Memory) : Prop where
  isOpen   : m'.IsOpen
  inFlight : m'.inFlight ~ m.inFlight ++ outcome.fired.map .watch ++ call.answer id outcome
  watched  : m'.watched ++ outcome.fired.map (·.id) ~
    m.watched ++ if call.op.setsWatch outcome.rc then [id] else []
  calls    : m'.calls = m.calls ++ [(id, call)]
  changes  : ∀ w ∈ outcome.fired, w.type.isSession = false

def logged (id : RequestId) (call : Call) (m : Memory) : Memory :=
  { m with calls := m.calls ++ [(id, call)] }

def answered (id : RequestId) (call : Call) (outcome : Outcome) (m : Memory) : Memory :=
  match call.mode with
  | .sync => m.emitWatches outcome.fired
  | .async => (m.emitWatches outcome.fired).complete
      ⟨id, outcome.rc, some call.op.path, outcome.payload⟩

theorem issue_eq (h : m.IsOpen) (hs : m.state = .connected) (id : RequestId) (call : Call) :
    m.issue id call =
      let (outcome, executed) := (m.logged id call).execute id call.op
      (.ok (call.result outcome), executed.answered id call outcome) := by
  have ho : ¬(m.handleClosed || m.channel.isNone) := by
    simp [h.handle, ← Option.isSome_iff_ne_none, h.channel]
  simp only [issue, if_neg ho, if_neg (not_not_intro hs), Call.result, answered]
  cases call.mode <;> rfl

theorem answered_sends (h : m.IsOpen) (id : RequestId) (call : Call) (outcome : Outcome) :
    Sends m (m.answered id call outcome) (outcome.fired.map .watch ++ call.answer id outcome) := by
  have s := emitWatches_sends h outcome.fired
  unfold answered Call.answer
  cases call.mode
  case sync  => exact s.trans (.refl s.isOpen)
  case async => exact s.trans (complete_sends s.isOpen _)

-- What a call comes to: the operation is executed, and its outcome reported.
theorem issue_executes (h : m.IsOpen) (hs : m.state = .connected) (id : RequestId) (call : Call) :
    let outcome := (m.logged id call).execute id call.op
    m.issue id call = (.ok (call.result outcome.1), outcome.2.answered id call outcome.1) ∧
      Answers id call outcome.1 m (outcome.2.answered id call outcome.1) := by
  have he := (m.logged id call).execute_executes id call.op
  rw [issue_eq h hs]
  generalize (m.logged id call).execute id call.op = x at he ⊢
  have ⟨outcome, executed⟩ := x
  have ho : executed.IsOpen := ⟨he.channel ▸ h.channel, he.handleClosed ▸ h.handle⟩
  have s := answered_sends ho id call outcome
  refine ⟨rfl, ?_⟩
  constructor
  case isOpen  => exact s.isOpen
  case watched => exact s.watched ▸ he.watched
  case calls   => exact s.calls.trans he.calls
  case changes => exact he.changes
  case inFlight =>
    have hc : executed.channel = m.channel := he.channel
    have hh : executed.held = m.held := he.held
    have hi : executed.inFlight = m.inFlight := by rw [inFlight, hc, hh, inFlight]
    rw [List.append_assoc]
    exact hi ▸ s.inFlight

theorem issue_answers (h : m.IsOpen) (hs : m.state = .connected) (id : RequestId) (call : Call) :
    ∃ outcome m', m.issue id call = (.ok (call.result outcome), m') ∧
      Answers id call outcome m m' :=
  ⟨_, _, issue_executes h hs id call⟩

end Memory
end Coordination
