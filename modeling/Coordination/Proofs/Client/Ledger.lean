import Coordination.Proofs.Client.Registration
import Coordination.Proofs.Memory.InFlight

/-!
The books of a client. What the registry expects and what the service owes are counted against
each other, request by request: a completion that is registered stands against one answer in
flight, and a watcher against one watch, one event, or one answer that says that there is no
watch.
-/
namespace Coordination

open scoped List

theorem RequestId.isGlobal_of_pos {id : RequestId} (h : 0 < id.number) : id.isGlobal = false := by
  rw [isGlobal, beq_eq_false_iff_ne]
  rintro rfl
  cases h

-- Whether the watcher of a call is still of use when the call has been carried out.
def Call.keepsWatcher (call : Call) (rc : ResultCode) : Bool :=
  match call.mode with
  | .sync => call.op.setsWatch rc
  | .async => call.op.asksWatch

theorem Call.toNat_keepsWatcher (call : Call) (rc : ResultCode) :
    (call.keepsWatcher rc).toNat = (call.op.setsWatch rc).toNat +
      (call.mode = .async && (call.op.asksWatch && !call.op.setsWatch rc)).toNat := by
  unfold keepsWatcher Operation.setsWatch
  cases call.mode <;> cases call.op.asksWatch <;>
    cases rc == .ok || call.op.isExists && rc == .noNode <;> rfl

def callOf? (calls : List (RequestId × Call)) (id : RequestId) : Option Call :=
  calls.reverse.lookup id

theorem callOf?_concat {calls : List (RequestId × Call)} {id j : RequestId} {call : Call} :
    callOf? (calls ++ [(id, call)]) j = if j = id then some call else callOf? calls j := by
  rw [callOf?, List.reverse_concat, List.lookup_cons]
  by_cases h : j = id
  case pos => simp [h]
  case neg => simp [h, beq_eq_false_iff_ne.mpr h, callOf?]

namespace Event

-- The event tells a request, and not the whole session, of a change.
def notifies (id : RequestId) : Event → Bool
  | completion _ => false
  | watch w => w.id = id && !w.id.isGlobal

theorem notifies_session {id : RequestId} {state : ConnectionState} :
    (watch (.session state)).notifies id = false :=
  Bool.and_false _

-- The event answers a read that was to set a watch and has not.
def failsWatch (calls : List (RequestId × Call)) (id : RequestId) : Event → Bool
  | completion c => c.id = id &&
    match callOf? calls id with
    | some ⟨op, .async⟩ => op.asksWatch && !op.setsWatch c.rc
    | _ => false
  | watch _ => false

-- Once the event is received, the watcher of the request is of no more use.
def endsWatch (calls : List (RequestId × Call)) (id : RequestId) (e : Event) : Bool :=
  e.notifies id || e.failsWatch calls id

theorem toNat_endsWatch {calls : List (RequestId × Call)} {id : RequestId} {e : Event} :
    (e.endsWatch calls id).toNat = (e.notifies id).toNat + (e.failsWatch calls id).toNat := by
  cases e
  case completion => simp [endsWatch, notifies]
  case watch      => simp [endsWatch, failsWatch]

end Event

section

variable {ws : List WatchEvent} {calls : List (RequestId × Call)} {id j : RequestId} {call : Call}
  {outcome : Memory.Outcome}

theorem countP_answers_watch : (ws.map Event.watch).countP (·.answers id) = 0 := by
  simp [Event.answers]

theorem countP_failsWatch_watch : (ws.map Event.watch).countP (·.failsWatch calls id) = 0 := by
  simp [Event.failsWatch]

theorem countP_notifies_watch (h : ∀ w ∈ ws, w.id.isGlobal = false) :
    (ws.map Event.watch).countP (·.notifies id) = (ws.map (·.id)).count id := by
  rw [List.countP_map, List.count_eq_countP, List.countP_map]
  apply List.countP_congr
  intro w hw
  simp [Event.notifies, h w hw]

theorem completion_mem_answer {c : CompletionEvent} :
    .completion c ∈ call.answer id outcome ↔ call.mode = .async ∧
      c = ⟨id, outcome.rc, some call.op.path, outcome.payload⟩ := by
  unfold Call.answer
  cases call.mode <;> simp

theorem watch_not_mem_answer {w : WatchEvent} : .watch w ∉ call.answer id outcome := by
  unfold Call.answer
  cases call.mode <;> simp

theorem countP_answers_answer :
    (call.answer id outcome).countP (·.answers j) = (call.mode = .async && id = j).toNat := by
  unfold Call.answer
  cases call.mode <;> by_cases h : id = j <;> simp [Event.answers, h]

theorem countP_notifies_answer : (call.answer id outcome).countP (·.notifies j) = 0 := by
  unfold Call.answer
  cases call.mode <;> simp [Event.notifies]

theorem countP_failsWatch_answer :
    (call.answer id outcome).countP (·.failsWatch (calls ++ [(id, call)]) j) =
      (call.mode = .async && id = j &&
        (call.op.asksWatch && !call.op.setsWatch outcome.rc)).toNat := by
  have ⟨op, mode⟩ := call
  cases mode <;> by_cases h : id = j <;>
    simp [Call.answer, Event.failsWatch, callOf?_concat, h, List.countP_cons]
  cases op.asksWatch <;> cases op.setsWatch outcome.rc <;> rfl

end

-- What the registry expects, and what the service owes.
structure Ledger (ε : Type) where
  registry : Registry (Callback ε)
  inFlight : List Event
  watched : List RequestId
  calls : List (RequestId × Call)

namespace Ledger

variable {ε : Type} {l l' : Ledger ε}

def answers (l : Ledger ε) (id : RequestId) : Nat :=
  l.inFlight.countP (·.answers id)

-- The ways in which the watcher of a request can still be of use.
def chances (l : Ledger ε) (id : RequestId) : Nat :=
  l.watched.count id + l.inFlight.countP (·.notifies id) +
    l.inFlight.countP (·.failsWatch l.calls id)

-- The watcher of a request is registered; the one of the whole session does not count.
def hasWatcher (l : Ledger ε) (id : RequestId) : Bool :=
  (l.registry.get? (.watcher id)).isSome && !id.isGlobal

section

variable {e : Event} {rest : List Event} (h : l.inFlight ~ e :: rest) (r : Registry (Callback ε))
  (id : RequestId)

include h

theorem countP_inFlight (p : Event → Bool) :
    l.inFlight.countP p = rest.countP p + (p e).toNat := by
  rw [h.countP_eq, List.countP_cons]
  cases p e <;> rfl

theorem answers_eq_add :
    l.answers id = answers { l with registry := r, inFlight := rest } id + (e.answers id).toNat :=
  countP_inFlight h _

theorem chances_eq_add :
    l.chances id = chances { l with registry := r, inFlight := rest } id +
      (e.endsWatch l.calls id).toNat := by
  simp only [chances, countP_inFlight h, Event.toNat_endsWatch]
  omega

end

structure Balanced (l : Ledger ε) : Prop where
  started     : 0 < l.registry.nextId.number
  numbered    : ∀ s, s.isSingleUse → (l.registry.get? s).isSome →
    0 < s.id.number ∧ s.id.number < l.registry.nextId.number
  global      : (l.registry.get? (.watcher .global)).isSome
  completions : ∀ id, l.answers id = (l.registry.get? (.completion id)).isSome.toNat
  watchers    : ∀ id, l.chances id = (l.hasWatcher id).toNat
  linked      : ∀ c, .completion c ∈ l.inFlight → ∃ op e,
    callOf? l.calls c.id = some ⟨op, .async⟩ ∧
    l.registry.get? (.completion c.id) = some e ∧
    e.handler.watching = if op.asksWatch then some op.isExists else none
  notices     : ∀ w, .watch w ∈ l.inFlight → w.type.isSession = w.id.isGlobal

theorem countP_notices {es : List Event} {p : Event → Bool}
    (he : ∀ e ∈ es, ∃ state, e = .watch (.session state))
    (hp : ∀ state, p (.watch (.session state)) = false) : es.countP p = 0 := by
  rw [List.countP_eq_zero]
  intro e h
  obtain ⟨state, rfl⟩ := he e h
  simp [hp]

namespace Balanced

theorem fresh {r : Registry (Callback ε)} {global : Entry (Callback ε)}
    (hr : l.registry = (r.clear global).2) (hn : 0 < r.nextId.number)
    (hi : ∀ e ∈ l.inFlight, ∃ state, e = .watch (.session state)) (hw : l.watched = []) :
    l.Balanced where
  started     := hr ▸ hn
  numbered    := by
    intro s hs h
    rw [hr, Registry.get?_clear] at h
    split at h
    case isTrue hg => cases hg; cases hs
    case isFalse   => cases h
  global      := by simp [hr, Registry.get?_clear]
  completions := by
    intro id
    rw [Ledger.answers, countP_notices hi fun _ => rfl, hr, Registry.get?_clear]
    simp
  watchers    := by
    intro id
    rw [Ledger.chances, countP_notices hi fun _ => Event.notifies_session,
      countP_notices hi fun _ => rfl, hw, hasWatcher, hr, Registry.get?_clear]
    by_cases h : id = .global <;> simp [h, RequestId.isGlobal]
  linked      := by
    intro c h
    obtain ⟨_, hs⟩ := hi _ h
    cases hs
  notices     := by
    intro w h
    obtain ⟨_, hs⟩ := hi _ h
    cases hs
    rfl

-- The books do not say where in flight an event is, and notices for the whole session are not kept.
theorem of_perm {es : List Event} (b : l.Balanced) (hr : l'.registry = l.registry)
    (hi : l'.inFlight ~ l.inFlight ++ es) (hw : l'.watched ~ l.watched) (hc : l'.calls = l.calls)
    (he : ∀ e ∈ es, ∃ state, e = .watch (.session state)) : l'.Balanced := by
  have none {p : Event → Bool} (hp : ∀ state, p (.watch (.session state)) = false) :
      l'.inFlight.countP p = l.inFlight.countP p := by
    rw [hi.countP_eq, List.countP_append, countP_notices he hp, Nat.add_zero]
  constructor
  case started  => exact hr ▸ b.started
  case numbered => exact hr ▸ b.numbered
  case global   => exact hr ▸ b.global
  case completions =>
    intro id
    rw [Ledger.answers, none fun _ => rfl, hr]
    exact b.completions id
  case watchers =>
    intro id
    rw [Ledger.chances, none fun _ => Event.notifies_session, none fun _ => rfl,
      hw.count_eq, hc, hasWatcher, hr]
    exact b.watchers id
  case linked =>
    intro c h
    rw [hc, hr]
    refine b.linked c ?_
    cases List.mem_append.mp (hi.subset h)
    case inl h => exact h
    case inr h => have ⟨_, hs⟩ := he _ h; cases hs
  case notices =>
    intro w h
    cases List.mem_append.mp (hi.subset h)
    case inl h => exact b.notices w h
    case inr h => have ⟨_, hs⟩ := he _ h; cases hs; rfl

theorem answers_le_one (b : l.Balanced) (id : RequestId) : l.answers id ≤ 1 :=
  b.completions id ▸ Bool.toNat_le _

theorem chances_le_one (b : l.Balanced) (id : RequestId) : l.chances id ≤ 1 :=
  b.watchers id ▸ Bool.toNat_le _

-- An event is received: whoever waits for it waits no more, and neither does the watcher of a read
-- that turns out to have set no watch.
theorem receive {e : Event} {r : Registry (Callback ε)} {rest : List Event} (b : l.Balanced)
    (h : l.inFlight ~ e :: rest) (hn : r.nextId = l.registry.nextId)
    (hc : ∀ id, r.get? (.completion id) =
      if e.answers id then none else l.registry.get? (.completion id))
    (hw : ∀ id, r.get? (.watcher id) =
      if e.endsWatch l.calls id then none else l.registry.get? (.watcher id)) :
    Balanced { l with registry := r, inFlight := rest } := by
  constructor
  case started => exact hn ▸ b.started
  case notices => exact fun w hw => b.notices w <| h.symm.subset <| .tail _ hw
  case numbered =>
    intro s hs hr
    refine hn ▸ b.numbered s hs ?_
    cases s
    case completion id => rw [hc] at hr; split at hr <;> simp_all
    case watcher id    => rw [hw] at hr; split at hr <;> simp_all
  case global =>
    have hx := chances_eq_add h r .global
    have hb := b.watchers .global
    have he : e.endsWatch l.calls .global = false := by
      rw [hasWatcher, RequestId.isGlobal, BEq.rfl, Bool.not_true, Bool.and_false] at hb
      rw [← Bool.toNat_eq_zero]
      exact Nat.add_eq_zero_iff.mp (hx.symm.trans hb) |>.right
    simpa [hw, he] using b.global
  case completions =>
    intro id
    have ha := answers_eq_add h r id
    have hl := b.answers_le_one id
    rw [hc]
    cases he : e.answers id <;> rw [he] at ha
    case false => exact ha.symm.trans (b.completions id)
    case true =>
      simp only [if_true, Option.isSome_none, Bool.toNat_true, Bool.toNat_false] at ha ⊢
      omega
  case watchers =>
    intro id
    have hx := chances_eq_add h r id
    have hl := b.chances_le_one id
    have hb := b.watchers id
    simp only [hasWatcher, hw] at hb ⊢
    cases he : e.endsWatch l.calls id <;> rw [he] at hx
    case false => exact hx.symm.trans hb
    case true =>
      simp only [if_true, Option.isSome_none, Bool.false_and, Bool.toNat_true,
        Bool.toNat_false] at hx ⊢
      omega
  case linked =>
    intro c h'
    have hl := b.answers_le_one c.id
    have ha := answers_eq_add h r c.id
    have hp : 0 < rest.countP (·.answers c.id) :=
      List.countP_pos_iff.mpr ⟨_, h', decide_eq_true rfl⟩
    have he : e.answers c.id = false := by
      rw [← Bool.toNat_eq_zero]
      simp only [Ledger.answers] at ha hl
      omega
    obtain ⟨op, e, ho, hr, hs⟩ := b.linked c <| h.symm.subset <| .tail _ h'
    exact ⟨op, e, ho, by simp [hc, he, hr], hs⟩

theorem isGlobal_nextId (b : l.Balanced) : l.registry.nextId.isGlobal = false :=
  RequestId.isGlobal_of_pos b.started

theorem isGlobal_of_answer {c : CompletionEvent} (b : l.Balanced) (h : .completion c ∈ l.inFlight) :
    c.id.isGlobal = false := by
  obtain ⟨_, _, -, he, -⟩ := b.linked c h
  exact RequestId.isGlobal_of_pos (b.numbered (.completion c.id) rfl (by simp [he])).left

theorem isSome_of_notice {w : WatchEvent} (b : l.Balanced) (h : .watch w ∈ l.inFlight) :
    (l.registry.get? (.watcher w.id)).isSome := by
  cases hg : w.id.isGlobal
  case true => exact eq_of_beq hg ▸ b.global
  case false =>
    have hp : 0 < l.inFlight.countP (·.notifies w.id) :=
      List.countP_pos_iff.mpr ⟨_, h, by simp [Event.notifies, hg]⟩
    have hx := b.watchers w.id
    cases hs : l.hasWatcher w.id
    case true => exact (Bool.and_eq_true _ _ |>.mp hs).left
    case false =>
      rw [hs, Ledger.chances, Bool.toNat_false] at hx
      omega

theorem absent {s : Slot} (b : l.Balanced) (hs : s.isSingleUse) (h : s.id = l.registry.nextId) :
    l.registry.get? s = none := by
  rw [← Option.not_isSome_iff_eq_none]
  intro hr
  exact Int.lt_irrefl _ (h ▸ b.numbered s hs hr |>.right)

theorem id_ne_nextId {c : CompletionEvent} (b : l.Balanced) (h : .completion c ∈ l.inFlight) :
    c.id ≠ l.registry.nextId := by
  intro hid
  obtain ⟨_, _, -, he, -⟩ := b.linked c h
  rw [b.absent (s := .completion c.id) rfl hid] at he
  cases he

theorem isGlobal_of_mem_watched {id : RequestId} (b : l.Balanced) (h : id ∈ l.watched) :
    id.isGlobal = false := by
  have hp := List.count_pos_iff.mpr h
  have hx := b.watchers id
  cases hg : id.isGlobal
  case false => rfl
  case true =>
    simp only [hasWatcher, hg, Ledger.chances, Bool.not_true, Bool.and_false,
      Bool.toNat_false] at hx
    omega

theorem failsWatch_concat {e : Event} {call : Call} (b : l.Balanced) (he : e ∈ l.inFlight)
    (id : RequestId) :
    e.failsWatch (l.calls ++ [(l.registry.nextId, call)]) id = e.failsWatch l.calls id := by
  cases e
  case watch => rfl
  case completion c =>
    by_cases h : c.id = id
    case neg => simp [Event.failsWatch, h]
    case pos =>
      have : id ≠ l.registry.nextId := h ▸ b.id_ne_nextId he
      simp [Event.failsWatch, callOf?_concat, this]

section

variable {call : Call} {outcome : Memory.Outcome} {inFlight : List Event}
  {watched : List RequestId} {r : Registry (Callback ε)}

theorem answers_submit
    (hi : inFlight ~ l.inFlight ++ outcome.fired.map .watch ++
      call.answer l.registry.nextId outcome) (id : RequestId) :
    inFlight.countP (·.answers id) =
      l.answers id + (call.mode = .async && l.registry.nextId = id).toNat := by
  rw [hi.countP_eq, List.countP_append, List.countP_append, countP_answers_watch,
    countP_answers_answer, Nat.add_zero, Ledger.answers]

theorem isGlobal_of_mem_fired (b : l.Balanced)
    (hw : watched ++ outcome.fired.map (·.id) ~
      l.watched ++ if call.op.setsWatch outcome.rc then [l.registry.nextId] else []) :
    ∀ w ∈ outcome.fired, w.id.isGlobal = false := by
  intro w h
  have h := hw.subset <| List.mem_append_right _ <| List.mem_map_of_mem h
  cases List.mem_append.mp h
  case inl h => exact b.isGlobal_of_mem_watched h
  case inr h =>
    split at h
    case isTrue  => exact List.mem_singleton.mp h ▸ b.isGlobal_nextId
    case isFalse => cases h

theorem chances_submit (b : l.Balanced)
    (hi : inFlight ~ l.inFlight ++ outcome.fired.map .watch ++
      call.answer l.registry.nextId outcome)
    (hw : watched ++ outcome.fired.map (·.id) ~
      l.watched ++ if call.op.setsWatch outcome.rc then [l.registry.nextId] else [])
    (id : RequestId) :
    chances ⟨r, inFlight, watched, l.calls ++ [(l.registry.nextId, call)]⟩ id =
      l.chances id + (l.registry.nextId = id && call.keepsWatcher outcome.rc).toNat := by
  have hg := b.isGlobal_of_mem_fired hw
  have hn := hi.countP_eq (·.notifies id)
  have hf := hi.countP_eq (·.failsWatch (l.calls ++ [(l.registry.nextId, call)]) id)
  have hc := hw.count_eq id
  have hl : l.inFlight.countP (·.failsWatch (l.calls ++ [(l.registry.nextId, call)]) id) =
      l.inFlight.countP (·.failsWatch l.calls id) := by
    apply List.countP_congr
    intro e he
    rw [b.failsWatch_concat he]
  rw [List.countP_append, List.countP_append, countP_notifies_watch hg,
    countP_notifies_answer] at hn
  rw [List.countP_append, List.countP_append, countP_failsWatch_watch, countP_failsWatch_answer,
    hl] at hf
  rw [List.count_append, List.count_append] at hc
  have hs : (if call.op.setsWatch outcome.rc then [l.registry.nextId] else []).count id =
      (l.registry.nextId = id && call.op.setsWatch outcome.rc).toNat := by
    cases call.op.setsWatch outcome.rc <;> by_cases h : l.registry.nextId = id <;> simp [h]
  have hk := call.toNat_keepsWatcher outcome.rc
  simp only [Ledger.chances, hn, hf]
  cases h : decide (l.registry.nextId = id) <;>
    simp only [h, Bool.true_and, Bool.false_and, Bool.and_true, Bool.and_false,
      Bool.toNat_false] at hs ⊢
  all_goals omega

theorem submit {ce we : Option (Entry (Callback ε))} (b : l.Balanced)
    (hi : inFlight ~ l.inFlight ++ outcome.fired.map .watch ++
      call.answer l.registry.nextId outcome)
    (hw : watched ++ outcome.fired.map (·.id) ~
      l.watched ++ if call.op.setsWatch outcome.rc then [l.registry.nextId] else [])
    (hf : ∀ w ∈ outcome.fired, w.type.isSession = false)
    (hn : r.nextId.number = l.registry.nextId.number + 1)
    (hrc : ∀ id, r.get? (.completion id) =
      if id = l.registry.nextId then ce else l.registry.get? (.completion id))
    (hrw : ∀ id, r.get? (.watcher id) =
      if id = l.registry.nextId then we else l.registry.get? (.watcher id))
    (hce : ce.isSome = (call.mode = .async : Bool))
    (hl : ∀ e ∈ ce, e.handler.watching = if call.op.asksWatch then some call.op.isExists else none)
    (hwe : we.isSome = call.keepsWatcher outcome.rc) :
    Balanced ⟨r, inFlight, watched, l.calls ++ [(l.registry.nextId, call)]⟩ := by
  have hs := b.started
  constructor
  case started => rw [hn]; omega
  case numbered =>
    intro s hs' hr
    by_cases h : s.id = l.registry.nextId
    case pos => rw [h, hn]; omega
    case neg =>
      have he : r.get? s = l.registry.get? s := by
        cases s
        case completion => exact hrc _ |>.trans <| if_neg h
        case watcher    => exact hrw _ |>.trans <| if_neg h
      obtain ⟨hp, hl⟩ := b.numbered s hs' <| he ▸ hr
      exact ⟨hp, by rw [hn]; omega⟩
  case global =>
    have : RequestId.global ≠ l.registry.nextId := by
      intro h
      have := b.isGlobal_nextId
      simp [← h, RequestId.isGlobal] at this
    simpa [hrw, this] using b.global
  case completions =>
    intro id
    rw [Ledger.answers, answers_submit hi, b.completions, hrc, ← hce]
    by_cases h : id = l.registry.nextId
    case pos => simp [h, b.absent (s := .completion l.registry.nextId) rfl rfl]
    case neg => simp [h, Ne.symm h]
  case watchers =>
    intro id
    rw [b.chances_submit hi hw, b.watchers, hasWatcher, hasWatcher, hrw, ← hwe]
    by_cases h : id = l.registry.nextId
    case pos =>
      have hu : (Slot.watcher l.registry.nextId).isSingleUse := by
        simp [Slot.isSingleUse, b.isGlobal_nextId]
      have ha := b.absent hu rfl
      simp [h, ha, b.isGlobal_nextId]
    case neg => simp [h, Ne.symm h]
  case linked =>
    intro c h
    simp only [callOf?_concat, hrc]
    rcases List.mem_append.mp (hi.subset h) with h | h
    case inl =>
      rcases List.mem_append.mp h with h | h
      case inl => simpa [b.id_ne_nextId h] using b.linked c h
      case inr => simp at h
    case inr =>
      obtain ⟨hm, rfl⟩ := completion_mem_answer.mp h
      obtain ⟨e, rfl⟩ := Option.isSome_iff_exists.mp <| hce.trans <| decide_eq_true hm
      exact ⟨call.op, e, by simp [← hm], by simp, hl e rfl⟩
  case notices =>
    intro w h
    rcases List.mem_append.mp (hi.subset h) with h | h
    case inl =>
      rcases List.mem_append.mp h with h | h
      case inl => exact b.notices w h
      case inr =>
        obtain ⟨w', h, hw'⟩ := List.mem_map.mp h
        cases hw'
        rw [hf w h, b.isGlobal_of_mem_fired hw w h]
    case inr => exact absurd h watch_not_mem_answer

end

end Balanced
end Ledger
end Coordination
