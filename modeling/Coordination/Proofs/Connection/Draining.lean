import Coordination.Answer
import Coordination.Proofs.Connection.Session
import Coordination.Proofs.Queue.Handover

namespace Coordination

section

variable {β η : Type} [Backend β]

-- The stream hands out these events, and then an answer that is none. That leaves the backend `b'`.
inductive Backend.Recites : List Event → β → β → Prop
  | ending {b b' : β} {answer : Except Error Item} (h : Backend.next b = some (answer, b'))
      (ha : ∀ e, answer ≠ .ok (.event e)) : Recites [] b b'
  | event {e : Event} {es : List Event} {b b' b'' : β}
      (h : Backend.next b = some (.ok (.event e), b')) (hs : Recites es b' b'') :
      Recites (e :: es) b b''

-- A service in memory recites what is on its stream in front of the marker.
theorem Memory.recites {m : Memory} {es : List Event} {rest : List Item}
    (ho : m.handleClosed = false)
    (hc : m.channel = some (es.map Item.event ++ .shutdown :: rest)) :
    Backend.Recites es m { m with channel := some rest } := by
  induction es generalizing m
  case nil =>
    have hn : Backend.next m = some (.ok .shutdown, { m with channel := some rest }) := by
      simp [Backend.next, next, ho, hc]
    exact .ending hn (by simp)
  case cons e es ih =>
    let m' := { m with channel := some (es.map Item.event ++ Item.shutdown :: rest) }
    have hn : Backend.next m = some (.ok (.event e), m') := by simp [Backend.next, next, ho, hc, m']
    exact .event hn <| ih (m := m') ho rfl

def Queue.pushEvents (es : List Event) (q : Queue) : Queue :=
  es.foldl (fun q e => q.push (.event e)) q

theorem Queue.toList_pushEvents {es : List Event} {q : Queue} :
    (q.pushEvents es).toList = q.toList ++ es.map .event := by
  induction es generalizing q
  case nil          => exact (List.append_nil _).symm
  case cons e es ih => exact ih.trans <| by rw [toList_push, List.append_assoc]; rfl

namespace Connection

variable {c : Connection β η} {q : Queue} {es : List Event} {b b' : β}

def delivered (es : List Event) (b : β) (q : Queue) (c : Connection β η) : Connection β η :=
  { c with backend := b, delivering := false, queue := some (q.pushEvents es) }

theorem deliverOne_of_event {e : Event} (hd : c.delivering) (hq : c.queue = some q)
    (h : Backend.next c.backend = some (.ok (.event e), b)) :
    c.deliverOne.map Prod.fst =
      some { c with backend := b, queue := some (q.push (.event e)) } := by
  simp [deliverOne, hd, h, enqueue, hq]

theorem deliverOne_of_ending {answer : Except Error Item} (hd : c.delivering)
    (h : Backend.next c.backend = some (answer, b)) (ha : ∀ e, answer ≠ .ok (.event e)) :
    c.deliverOne.map Prod.fst = some { c with backend := b, delivering := false } := by
  rcases answer with _ | ⟨e | _⟩
  case ok.event => exact absurd rfl (ha e)
  all_goals simp [deliverOne, hd, h]

theorem deliverUpTo_succ (n : Nat) :
    (c.deliverUpTo (n + 1)).1 =
      match c.deliverOne.map Prod.fst with
      | none => c
      | some c' => (c'.deliverUpTo n).1 := by
  rw [deliverUpTo]
  cases c.deliverOne <;> rfl

theorem deliverUpTo_of_silent (h : c.deliverOne = none) (n : Nat) : (c.deliverUpTo n).1 = c := by
  cases n
  case zero   => rfl
  case succ n => rw [deliverUpTo_succ, h]; rfl

theorem deliverOne_delivered : (c.delivered es b q).deliverOne = none :=
  rfl

-- However often the stream is asked, it is asked for its events and for what ends it.
theorem deliverUpTo_recites (hs : Backend.Recites es b b') (hb : c.backend = b) (hd : c.delivering)
    (hq : c.queue = some q) {n : Nat} (hn : es.length < n) :
    (c.deliverUpTo n).1 = c.delivered es b' q := by
  induction hs generalizing c q n
  case ending h ha =>
    obtain _ | n := n
    case zero => cases hn
    rw [deliverUpTo_succ, deliverOne_of_ending hd (hb ▸ h) ha]
    refine (deliverUpTo_of_silent rfl n).trans ?_
    simp [delivered, hq, Queue.pushEvents]
  case event e es _ b _ h _ ih =>
    obtain _ | n := n
    case zero => cases hn
    rw [deliverUpTo_succ, deliverOne_of_event hd hq (hb ▸ h)]
    let c' := { c with backend := b, queue := some (q.push (.event e)) }
    exact ih (c := c') rfl hd rfl (Nat.lt_of_succ_lt_succ hn)

end Connection

end

-- What a handler does when it is called. It may change the dispatcher, and what it shares with
-- others, but has no queue to take from.
abbrev Handling (η σ : Type) :=
  Invocation η → σ → Dispatcher η → Outcome × σ × Dispatcher η

-- A call of the dispatcher that has returned.
structure Attended (η : Type) where
  event : Event
  -- The handler that was called, and how it ended.
  call : Option (Invocation η × Outcome)
  answer : Bool

-- What dispatching works on, and the calls so far.
structure Desk (η σ : Type) where
  dispatcher : Dispatcher η
  shared : σ
  attended : List (Attended η)

namespace Desk

variable {η σ : Type} {handle : Handling η σ} {desk : Desk η σ} {es : List Event}

def attend (handle : Handling η σ) (desk : Desk η σ) (event : Event) : Desk η σ :=
  match desk.dispatcher.start event with
  | (none, d) =>
    { desk with dispatcher := d, attended := desk.attended ++ [⟨event, none, false⟩] }
  | (some i, d) =>
    let (outcome, shared, d) := handle i desk.shared d
    ⟨d.finish i outcome, shared, desk.attended ++ [⟨event, some (i, outcome), true⟩]⟩

def attendAll (handle : Handling η σ) (es : List Event) (desk : Desk η σ) : Desk η σ :=
  es.foldl (attend handle) desk

theorem attended_attend (event : Event) :
    (desk.attend handle event).attended.map Attended.event =
      desk.attended.map Attended.event ++ [event] := by
  unfold attend
  split <;> simp

theorem attended_attendAll :
    (desk.attendAll handle es).attended.map Attended.event =
      desk.attended.map Attended.event ++ es := by
  induction es generalizing desk
  case nil          => exact (List.append_nil _).symm
  case cons e es ih => exact ih.trans <| by rw [attended_attend, List.append_assoc]; rfl

end Desk

namespace Queue

variable {q q' : Queue} {item : Item}

theorem size_of_pop (h : q.pop = (some item, q')) : q'.size < q.size := by
  have hs : q.pop.2.size = q.size - 1 := size_pop
  have hz : q.size ≠ 0 := fun hz => by
    have hn := q.pop_eq_none_iff.mpr <| size_eq_zero_iff.mp hz
    rw [h] at hn
    cases hn
  rw [h] at hs
  simp only at hs
  omega

end Queue

structure Worker (η σ : Type) where
  queue : Queue
  status : DispatchState
  desk : Desk η σ

namespace Worker

variable {η σ : Type} {handle : Handling η σ} {flag : Nat → Bool} {w w' : Worker η σ}
  {es : List Event}

-- After an event the loop goes on while the connection runs or items are left.
def goesOn (running : Bool) (q : Queue) : Bool :=
  running || !q.isEmpty

-- Takes an item, and tells whether the loop goes on; `none` while there is no item to take.
def once (handle : Handling η σ) (running : Bool) (w : Worker η σ) : Option (Bool × Worker η σ) :=
  match w.queue.pop with
  | (none, _) => none
  | (some .shutdown, q) => some (false, { w with queue := q })
  | (some (.event e), q) =>
    some (goesOn running q, { w with queue := q, desk := w.desk.attend handle e })

theorem once_size {running goes : Bool} (h : w.once handle running = some (goes, w')) :
    w'.queue.size < w.queue.size := by
  unfold once at h
  split at h
  case h_1    => cases h
  case h_2 hp => cases h; exact Queue.size_of_pop hp
  case h_3 hp => cases h; exact Queue.size_of_pop hp

-- Repeats it until the loop stops; `none` if it waits for an item instead. The connection runs at
-- some times and not at others: `flag` tells for each time it is looked at, from the `n`-th on.
def loop (handle : Handling η σ) (flag : Nat → Bool) (n : Nat) (w : Worker η σ) :
    Option (Worker η σ) :=
  match h : w.once handle (flag n) with
  | none => none
  | some (true, w') => loop handle flag (n + 1) w'
  | some (false, w') => some { w' with status := .stopped }
termination_by w.queue.size
decreasing_by exact once_size h

def run (handle : Handling η σ) (flag : Nat → Bool) (w : Worker η σ) : Option (Worker η σ) :=
  loop handle flag 1 (if flag 0 then { w with status := .draining } else w)

-- The loop has a reason to stop right after these events and not before: the marker follows them,
-- or nothing follows and the connection is found not to run after the last of them.
def EndsAfter (flag : Nat → Bool) (n : Nat) (es : List Event) (items : List Item) : Prop :=
  items = es.map .event ++ [.shutdown] ∨
    items = es.map .event ∧ es ≠ [] ∧ flag (n + es.length) = false

theorem once_marker (handle : Handling η σ) (running : Bool) (h : w.queue.toList = [.shutdown]) :
    ∃ q, q.isEmpty ∧ w.once handle running = some (false, { w with queue := q }) := by
  have ⟨hi, hl⟩ := w.queue.pop_cons h
  have hp : w.queue.pop = (some .shutdown, w.queue.pop.2) := Prod.ext hi rfl
  refine ⟨w.queue.pop.2, ?_, ?_⟩
  case refine_1 => rw [← Queue.isEmpty_toList, hl, List.isEmpty_nil]
  case refine_2 => rw [once, hp]

theorem once_event {e : Event} {items : List Item} (handle : Handling η σ) (running : Bool)
    (h : w.queue.toList = .event e :: items) :
    ∃ q, q.toList = items ∧ w.once handle running =
      some (running || !items.isEmpty, { w with queue := q, desk := w.desk.attend handle e }) := by
  have ⟨hi, hl⟩ := w.queue.pop_cons h
  have hp : w.queue.pop = (some (.event e), w.queue.pop.2) := Prod.ext hi rfl
  refine ⟨w.queue.pop.2, hl, ?_⟩
  rw [once, hp]
  simp only [goesOn, ← Queue.isEmpty_toList, hl]

theorem loop_of_stops {n : Nat} (h : w.once handle (flag n) = some (false, w')) :
    w.loop handle flag n = some { w' with status := .stopped } := by
  rw [loop]
  split <;> simp_all

theorem loop_of_goes {n : Nat} (h : w.once handle (flag n) = some (true, w')) :
    w.loop handle flag n = w'.loop handle flag (n + 1) := by
  rw [loop]
  split <;> simp_all

theorem endsAfter_cons {n : Nat} {e : Event} {items : List Item}
    (h : EndsAfter flag n (e :: es) items) :
    ∃ rest, items = .event e :: rest ∧
      (rest = [] ∧ es = [] ∧ flag (n + 1) = false ∨
        rest ≠ [] ∧ EndsAfter flag (n + 1) es rest) := by
  rcases h with rfl | ⟨rfl, _, hf⟩
  case inl => exact ⟨_, rfl, .inr ⟨by simp, .inl rfl⟩⟩
  case inr =>
    refine ⟨_, rfl, ?_⟩
    rcases es with _ | ⟨e', es⟩
    case nil  => exact .inl ⟨rfl, rfl, hf⟩
    case cons =>
      rw [List.length_cons, Nat.add_comm _ 1, ← Nat.add_assoc] at hf
      exact .inr ⟨nofun, .inr ⟨rfl, nofun, hf⟩⟩

-- Induction on the events. As long as there is another one, the queue is not empty.
theorem loop_of_endsAfter {n : Nat} (h : EndsAfter flag n es w.queue.toList) :
    ∃ q, q.isEmpty ∧
      w.loop handle flag (n + 1) = some ⟨q, .stopped, w.desk.attendAll handle es⟩ := by
  induction es generalizing w n
  case nil =>
    obtain h | ⟨_, h, _⟩ := h
    case inr => exact absurd rfl h
    have ⟨q, he, ho⟩ := once_marker handle (flag (n + 1)) h
    exact ⟨q, he, loop_of_stops ho⟩
  case cons e es ih =>
    obtain ⟨rest, hl, h⟩ := endsAfter_cons h
    obtain ⟨q, hq, ho⟩ := once_event handle (flag (n + 1)) hl
    rcases h with ⟨rfl, rfl, hf⟩ | ⟨hr, h⟩
    case inl =>
      have hg : (flag (n + 1) || !([] : List Item).isEmpty) = false := by simp [hf]
      rw [hg] at ho
      have hs : w.loop handle flag (n + 1) = some ⟨q, .stopped, w.desk.attend handle e⟩ :=
        loop_of_stops ho
      exact ⟨q, by rw [← Queue.isEmpty_toList, hq, List.isEmpty_nil], hs⟩
    case inr =>
      have hg : (flag (n + 1) || !rest.isEmpty) = true := by simp [hr]
      rw [hg] at ho
      rw [loop_of_goes ho]
      exact ih (hq ▸ h)

theorem run_of_endsAfter (h : EndsAfter flag 0 es w.queue.toList) :
    ∃ q, q.isEmpty ∧ w.run handle flag = some ⟨q, .stopped, w.desk.attendAll handle es⟩ := by
  unfold run
  split <;> exact loop_of_endsAfter h

end Worker

namespace Connection

variable {β η : Type} {c c' : Connection β η} {e : Event}

def waiting (c : Connection β η) : Nat :=
  (c.queue.map Queue.size).getD 0

theorem nextEvent_waiting (h : c.nextEvent = (some e, c')) : c'.waiting < c.waiting := by
  unfold nextEvent at h
  split at h
  case isTrue => cases h
  case isFalse =>
    split at h
    case h_1 => cases h
    case h_2 q hq =>
      cases hp : q.pop with | mk item q' =>
      cases item
      case none => simp [Queue.popEvent, hp] at h
      case some =>
        have hs := Queue.size_of_pop hp
        simp only [Queue.popEvent, hp] at h
        cases (Prod.mk.inj h).right
        simpa [waiting, hq] using hs

end Connection

-- An application that takes the events itself.
structure Manual (β η σ : Type) where
  connection : Connection β η
  shared : σ
  attended : List (Attended η)

namespace Manual

variable {β η σ : Type} {handle : Handling η σ} {m m' : Manual β η σ} {q : Queue} {es : List Event}

def desk (m : Manual β η σ) : Desk η σ :=
  ⟨m.connection.dispatcher, m.shared, m.attended⟩

def resting (q : Queue) (desk : Desk η σ) (m : Manual β η σ) : Manual β η σ where
  connection := { m.connection with queue := some q, dispatcher := desk.dispatcher }
  shared     := desk.shared
  attended   := desk.attended

def dispatchNext (handle : Handling η σ) (m : Manual β η σ) : Bool × Manual β η σ :=
  match m.connection.nextEvent with
  | (none, c) => (false, { m with connection := c })
  | (some e, c) =>
    let desk := { m with connection := c }.desk.attend handle e
    (true, ⟨{ c with dispatcher := desk.dispatcher }, desk.shared, desk.attended⟩)

theorem dispatchNext_waiting (h : m.dispatchNext handle = (true, m')) :
    m'.connection.waiting < m.connection.waiting := by
  unfold dispatchNext at h
  split at h
  case h_1    => cases h
  case h_2 c hn =>
    cases h
    have hw : c.waiting < m.connection.waiting := Connection.nextEvent_waiting hn
    exact hw

-- Repeats it until there is none, and counts the events.
def drain (handle : Handling η σ) (m : Manual β η σ) : Nat × Manual β η σ :=
  match h : m.dispatchNext handle with
  | (false, m') => (0, m')
  | (true, m') => ((drain handle m').1 + 1, (drain handle m').2)
termination_by m.connection.waiting
decreasing_by all_goals exact dispatchNext_waiting h

theorem drain_of_false (h : m.dispatchNext handle = (false, m')) : m.drain handle = (0, m') := by
  rw [drain]
  split <;> simp_all

theorem drain_of_true (h : m.dispatchNext handle = (true, m')) :
    m.drain handle = ((m'.drain handle).1 + 1, (m'.drain handle).2) := by
  rw [drain]
  split <;> simp_all

theorem drain_of_running (hr : m.connection.running) (hq : m.connection.queue = some q)
    (hl : q.toList = es.map .event) :
    ∃ q', q'.isEmpty ∧
      m.drain handle = (es.length, m.resting q' <| m.desk.attendAll handle es) := by
  induction es generalizing m q
  case nil =>
    have hn := Connection.nextEvent_nil hr hq hl
    refine ⟨q.popEvent.2, ?_, drain_of_false <| by rw [dispatchNext, hn]; rfl⟩
    rw [← Queue.isEmpty_toList, (q.popEvent_nil hl).right, List.isEmpty_nil]
  case cons e es ih =>
    have hn := Connection.nextEvent_cons hr hq hl
    have hl' := (q.popEvent_cons hl).right
    let m' := m.resting q.popEvent.2 <| m.desk.attend handle e
    have hd : m.dispatchNext handle = (true, m') := by rw [dispatchNext, hn]; rfl
    have ⟨q'', he, hs⟩ := ih (m := m') hr rfl hl'
    exact ⟨q'', he, by rw [drain_of_true hd, hs]; rfl⟩

end Manual

namespace Desk

variable {β η σ : Type}

-- Whatever the stream, delivery pushes its events and asks for nothing behind its end. Whichever
-- loop then dispatches the events, all of them are dispatched, each once and in this order, and
-- with the same effect.
theorem stream_attended [Backend β] (handle : Handling η σ) (es : List Event) (desk : Desk η σ) :
    let desk' := desk.attendAll handle es
    desk'.attended.map Attended.event = desk.attended.map Attended.event ++ es ∧
    (∀ (c : Connection β η) q b, c.delivering → c.queue = some q →
      Backend.Recites es c.backend b →
        (∀ n, es.length < n → (c.deliverUpTo n).1 = c.delivered es b q) ∧
        (c.delivered es b q).deliverOne = none ∧
        (q.pushEvents es).toList = q.toList ++ es.map .event) ∧
    (∀ (w : Worker η σ) flag, w.desk = desk → Worker.EndsAfter flag 0 es w.queue.toList →
      ∃ q, q.isEmpty ∧ w.run handle flag = some ⟨q, .stopped, desk'⟩) ∧
    (∀ (m : Manual β η σ) q, m.desk = desk → m.connection.running → m.connection.queue = some q →
      q.toList = es.map .event →
      ∃ q', q'.isEmpty ∧ m.drain handle = (es.length, m.resting q' desk')) := by
  refine ⟨attended_attendAll, fun c q b hd hq hs => ?_, ?_, ?_⟩
  case refine_1 =>
    have delivers n (hn : es.length < n) := Connection.deliverUpTo_recites hs rfl hd hq hn
    exact ⟨delivers, Connection.deliverOne_delivered, Queue.toList_pushEvents⟩
  case refine_2 =>
    rintro w flag rfl h
    exact Worker.run_of_endsAfter h
  case refine_3 =>
    rintro m q rfl hr hq hl
    exact Manual.drain_of_running hr hq hl

-- The first event finds the handler of its request, the second one finds nobody.
theorem stream_attended_twice :
    let e : Event := .completion ⟨⟨1⟩, .ok, none, .none⟩
    let m : Memory := { Memory.new 0 with channel := some [.event e, .event e, .shutdown] }
    let c : Connection Memory Unit :=
      { Connection.new ⟨"localhost:2181", ["localhost:2181"], none⟩ {} m ⟨(), none⟩ with
        dispatcher := ⟨(Registry.empty.allocate (some ⟨(), none⟩) none).2, {}⟩
        delivering := true
        running := true
        queue := some (.new true) }
    let handle : Handling Unit Nat := fun _ n d => (.failed "", n + 1, d)
    let q := (Queue.new true).pushEvents [e, e]
    let desk' := (⟨c.dispatcher, 0, []⟩ : Desk Unit Nat).attendAll handle [e, e]
    desk'.attended.map Attended.answer = [true, false] ∧
    (c.deliverUpTo 3).1.queue = some q ∧
    (∃ q', Worker.run handle (fun _ => true) ⟨q.push .shutdown, .idle, ⟨c.dispatcher, 0, []⟩⟩ =
      some ⟨q', .stopped, desk'⟩) ∧
    (∃ q', Worker.run handle (fun _ => false) ⟨q, .idle, ⟨c.dispatcher, 0, []⟩⟩ =
      some ⟨q', .stopped, desk'⟩) ∧
    ((⟨{ c with queue := some q }, 0, []⟩ : Manual Memory Unit Nat).drain handle).2.desk =
      desk' := by
  intro e m c handle q desk'
  have ⟨_, delivers, runs, drains⟩ :=
    @stream_attended Memory Unit Nat _ handle [e, e] ⟨c.dispatcher, 0, []⟩
  have recites : Backend.Recites [e, e] m _ := Memory.recites rfl rfl
  have pushed : q.toList = [e, e].map .event := Queue.toList_pushEvents
  have marked : (q.push .shutdown).toList = [e, e].map .event ++ [.shutdown] := by
    rw [Queue.toList_push, pushed]
  have ⟨q₁, _, h₁⟩ :=
    runs ⟨q.push .shutdown, .idle, ⟨c.dispatcher, 0, []⟩⟩ (fun _ => true) rfl (.inl marked)
  have ⟨q₂, _, h₂⟩ := runs ⟨q, .idle, ⟨c.dispatcher, 0, []⟩⟩ (fun _ => false) rfl <|
    .inr ⟨pushed, by simp, rfl⟩
  have ⟨q₃, _, h₃⟩ := drains ⟨{ c with queue := some q }, 0, []⟩ q rfl rfl rfl pushed
  have delivered := delivers c (.new true) _ rfl rfl recites |>.left 3 (by decide)
  have answers : desk'.attended.map Attended.answer = [true, false] := by decide
  refine ⟨answers, ?_, ⟨q₁, h₁⟩, ⟨q₂, h₂⟩, ?_⟩
  case refine_1 => exact congrArg Connection.queue delivered
  case refine_2 => exact congrArg (Manual.desk ∘ Prod.snd) h₃

end Desk

end Coordination
