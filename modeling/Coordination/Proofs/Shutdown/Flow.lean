import Coordination.Proofs.Connection.Session
import Coordination.Proofs.Memory.InFlight
import Coordination.Proofs.Shutdown.Pipeline

namespace Coordination

-- The marker is the last of some items, and nowhere else.
def Item.Closed : List Item → Prop
  | [] => False
  | .event _ :: rest => Closed rest
  | .shutdown :: rest => rest = []

namespace Item

variable {items rest : List Item} {e : Event}

@[simp] theorem events_nil : events [] = [] :=
  rfl

@[simp] theorem events_event : events (.event e :: rest) = e :: events rest :=
  rfl

@[simp] theorem events_shutdown : events (.shutdown :: rest) = events rest :=
  rfl

@[simp] theorem events_append : events (items ++ rest) = events items ++ events rest :=
  List.filterMap_append

theorem ahead_of_not_mem (h : .shutdown ∉ items) : ahead items = [] := by
  rcases items with _ | ⟨_ | _, _⟩ <;> simp_all [ahead]

theorem ahead_event (h : .shutdown ∈ rest) : ahead (.event e :: rest) = e :: ahead rest :=
  if_pos h

-- What is put on the stream behind the marker does not count.
@[simp] theorem ahead_append_event : ahead (items ++ [.event e]) = ahead items := by
  induction items
  case nil => rfl
  case cons item items ih => cases item <;> simp [ahead, ih]

theorem ahead_append_shutdown (h : .shutdown ∉ items) :
    ahead (items ++ [.shutdown]) = events items := by
  induction items
  case nil => rfl
  case cons item items ih => cases item <;> simp_all [ahead]

theorem closed_append_shutdown (h : .shutdown ∉ items) : Closed (items ++ [.shutdown]) := by
  induction items
  case nil => rfl
  case cons item items ih => cases item <;> simp_all [Closed]

theorem Closed.ne_nil (h : Closed items) : items ≠ [] := by
  rintro rfl
  exact h

end Item

theorem Connection.enqueue_eq {β η : Type} {c : Connection β η} {q : Queue} (h : c.queue = some q)
    (item : Item) : (c.enqueue item).1 = { c with queue := some (q.push item) } := by
  simp only [enqueue, h]

namespace Pipeline

variable {η : Type}

-- The events between the stream and the handlers.
def underway (p : Pipeline η) : List Event :=
  p.loop.hand ++ Item.events p.queued ++ p.hand.toList

-- The events that the delivery loop has yet to read.
def ahead (p : Pipeline η) : List Event :=
  match p.stage with
  | .running | .lowered => Item.events p.stream
  | .woken => Item.ahead p.stream
  | _ => p.abandoned

-- The events that closing is to wait for, as far as they are known.
def awaited (p : Pipeline η) : List Event :=
  match p.stage with
  | .running | .lowered => p.emitted
  | _ => p.due

-- What holds until close has returned.
structure Flows (p : Pipeline η) : Prop where
  busy     : p.stage ≠ .returned
  channel  : p.connection.backend.inner.channel = some p.stream
  handle   : p.connection.backend.inner.handleClosed = false
  queue    : p.connection.queue.isSome
  account  : p.awaited = p.dispatched ++ p.underway ++ p.ahead
  -- The marker of the stream.
  unwoken  : p.stage = .running ∨ p.stage = .lowered → .shutdown ∉ p.stream
  single   : p.stream.count .shutdown ≤ 1
  reading  : p.stage = .woken → p.connection.delivering → .shutdown ∈ p.stream
  joined   : p.stage = .joined ∨ p.stage = .marked → p.connection.delivering = false
  handed   : p.hand.isSome → p.connection.delivering
  -- The marker of the queue.
  unmarked : p.stage ≠ .marked → .shutdown ∉ p.queued
  marked   : p.stage = .marked → p.loop ≠ .stopped → Item.Closed p.queued
  left     : p.loop = .stopped → Item.events p.queued = p.late
  punctual : p.loop ≠ .stopped → p.late = []

section

variable {p : Pipeline η} {items rest : List Item} {item : Item}

theorem Flows.next_cons (f : Flows p) (h : p.stream = item :: rest) :
    Backend.next p.connection.backend = some (.ok item,
      { p.connection.backend with inner.channel := some rest }) := by
  have hn : Memory.next p.connection.backend.inner = some (.ok item,
      { p.connection.backend.inner with channel := some rest }) := by
    simp [Memory.next, f.handle, f.channel, h]
  change Faulty.next _ = _
  simp only [Faulty.next]
  rw [show Backend.next p.connection.backend.inner = _ from hn]

theorem Flows.next_nil (f : Flows p) (h : p.stream = []) :
    Backend.next p.connection.backend = p.connection.backend.cut.map fun e =>
      (.error e, { p.connection.backend with cut := none }) := by
  have hn : Memory.next p.connection.backend.inner = none := by
    simp [Memory.next, f.handle, f.channel, h]
  change Faulty.next _ = _
  simp only [Faulty.next]
  rw [show Backend.next p.connection.backend.inner = _ from hn]
  cases p.connection.backend.cut <;> rfl

theorem Flows.stream_emit (f : Flows p) (event : Event) :
    (p.step (.emit event)).stream = p.stream ++ [.event event] :=
  congrArg (Option.getD · []) (congrArg (Option.map _) f.channel)

theorem Flows.stream_wake (f : Flows p) :
    (Backend.wake p.connection.backend).inner.channel.getD [] = p.stream ++ [.shutdown] :=
  congrArg (Option.getD · []) (congrArg (Option.map _) f.channel)

end

namespace Flows

section

variable {p : Pipeline η}

theorem emit (f : Flows p) (event : Event) :
    Flows (p.step (.emit event)) := by
  have hs := f.stream_emit event
  refine ⟨f.busy, ?_, f.handle, f.queue, ?_, ?_, ?_, ?_, f.joined, f.handed, f.unmarked, f.marked,
    f.left, f.punctual⟩
  case refine_1 => rw [hs]; exact congrArg (Option.map _) f.channel
  case refine_2 =>
    have ha := f.account
    change awaited { p with emitted := _ } = p.dispatched ++ p.underway ++ _
    simp only [ahead, awaited, hs] at ha ⊢
    have := f.busy
    cases hst : p.stage <;> simp_all [step]
  case refine_3 => intro h; rw [hs]; simpa using f.unwoken h
  case refine_4 => rw [hs]; simpa using f.single
  case refine_5 => intro h hd; rw [hs]; simpa using f.reading h hd

theorem cut (f : Flows p) (failure : Error) : Flows (p.step (.cut failure)) := by
  simp only [step]
  split
  case isTrue  => exact { f with }
  case isFalse => exact f

theorem register (f : Flows p) (g : Registry η → Registry η) : Flows (p.step (.register g)) :=
  { f with }

-- The stage is none of those that have waited for the delivery loop.
theorem stage_of_delivering (f : Flows p) (hd : p.connection.delivering) :
    p.stage ≠ .joined ∧ p.stage ≠ .marked := by
  refine ⟨fun h => ?_, fun h => ?_⟩
  · simp [f.joined (.inl h)] at hd
  · simp [f.joined (.inr h)] at hd

theorem push (f : Flows p) : Flows p.push := by
  unfold Pipeline.push
  cases hh : p.hand
  case none => exact f
  case some e =>
    obtain ⟨q, hq⟩ := Option.isSome_iff_exists.mp f.queue
    have hs := f.stage_of_delivering <| f.handed (by rw [hh]; rfl)
    have ha := f.account
    have hl := f.left
    have hu := f.unmarked
    simp only [Connection.enqueue_eq hq]
    refine ⟨f.busy, f.channel, f.handle, rfl, ?_, f.unwoken, f.single, f.reading, f.joined, nofun,
      ?_, fun h => absurd h hs.right, ?_, ?_⟩
    case refine_1 =>
      change p.awaited = p.dispatched ++ _ ++ p.ahead
      simpa [underway, queued, hq, hh] using ha
    case refine_2 => simpa [queued, hq] using hu
    case refine_3 =>
      intro h
      simpa [queued, hq, if_pos h] using hl h
    case refine_4 =>
      intro h
      rw [if_neg h]
      exact f.punctual h

theorem receive (f : Flows p) : Flows p.receive := by
  unfold Pipeline.receive
  split
  case isFalse => exact f
  case isTrue hd =>
    obtain ⟨hd, hh⟩ : p.connection.delivering ∧ p.hand = none := by simpa using hd
    have hs := f.stage_of_delivering hd
    have ha := f.account
    have h₁ := f.unwoken
    have h₂ := f.single
    have h₃ := f.reading
    have hb := f.busy
    rcases hp : p.stream with _ | ⟨e | _, rest⟩
    case nil =>
      rw [f.next_nil hp]
      cases p.connection.backend.cut
      case none => exact f
      case some =>
        refine ⟨f.busy, f.channel, f.handle, f.queue, f.account, f.unwoken, f.single, ?_, ?_, ?_,
          f.unmarked, f.marked, f.left, f.punctual⟩
        · exact fun _ h => by cases h
        · exact fun _ => rfl
        · simp [hh]
    case cons.event =>
      rw [f.next_cons hp]
      rw [hp] at h₁ h₂ h₃
      refine ⟨f.busy, rfl, f.handle, f.queue, ?_, ?_, ?_, ?_, f.joined, fun _ => hd, f.unmarked,
        f.marked, f.left, f.punctual⟩
      case refine_1 =>
        change p.awaited = p.dispatched ++ _ ++ _
        rw [ha]
        simp only [underway, hh, ahead, hp]
        cases hst : p.stage <;> simp_all [stream, queued, Item.ahead_event]
      case refine_2 => exact fun h => List.not_mem_of_not_mem_cons (h₁ h)
      case refine_3 => exact Nat.le_trans (List.count_le_count_cons ..) h₂
      case refine_4 => exact fun h hd => (List.mem_cons.mp <| h₃ h hd).resolve_left (by simp)
    case cons.shutdown =>
      rw [f.next_cons hp]
      rw [hp] at h₁ h₂
      have hr : .shutdown ∉ rest := by simpa [List.count_eq_zero] using h₂
      refine ⟨f.busy, rfl, f.handle, f.queue, ?_, fun _ => hr, ?_, fun _ h => absurd h (by simp),
        fun _ => rfl, ?_, f.unmarked, f.marked, f.left, f.punctual⟩
      case refine_1 =>
        change p.awaited = p.dispatched ++ _ ++ _
        rw [ha]
        simp only [underway, hh, ahead, hp]
        cases hst : p.stage <;> simp_all [stream, queued, Item.ahead_of_not_mem, Item.ahead]
      case refine_2 => exact Nat.le_trans (List.count_le_count_cons ..) h₂
      case refine_3 => simp [hh]

theorem pop (f : Flows p) : Flows p.pop := by
  obtain ⟨q, hq⟩ := Option.isSome_iff_exists.mp f.queue
  have hp : p.queued = q.pop.1.toList ++ q.pop.2.toList := by
    rw [← q.toList_pop, queued, hq]
    rfl
  have ha := f.account
  have hu := f.unmarked
  have hm := f.marked
  unfold Pipeline.pop
  split
  case h_2 => exact f
  case h_1 q' hl hq' =>
    cases hq.symm.trans hq'
    have hl' := f.punctual (by simp [hl])
    rcases hpop : q.pop with ⟨_ | ⟨e | _⟩, q₁⟩ <;> simp only
    case none => exact f
    case some.event =>
      simp only [hpop, Option.toList_some, List.cons_append, List.nil_append] at hp
      refine ⟨f.busy, f.channel, f.handle, rfl, ?_, f.unwoken, f.single, f.reading, f.joined,
        f.handed, ?_, ?_, by simp, fun _ => hl'⟩
      case refine_1 =>
        change p.awaited =
          p.dispatched ++ ([e] ++ Item.events q₁.toList ++ p.hand.toList) ++ p.ahead
        rw [ha, underway, hp, hl]
        rfl
      case refine_2 => exact fun h => List.not_mem_of_not_mem_cons (hp ▸ hu h)
      case refine_3 =>
        intro h _
        have hc := hm h (by simp [hl])
        rw [hp] at hc
        exact hc
    case some.shutdown =>
      simp only [hpop, Option.toList_some, List.cons_append, List.nil_append] at hp
      have hst : p.stage = .marked := Decidable.of_not_not fun h => hu h (by simp [hp])
      -- Nothing is behind the marker.
      have hn : q₁.toList = [] := by
        have hc := hm hst (by simp [hl])
        rw [hp] at hc
        exact hc
      refine ⟨f.busy, f.channel, f.handle, rfl, ?_, f.unwoken, f.single, f.reading, f.joined,
        f.handed, fun h => absurd hst h, by simp, fun _ => ?_, by simp⟩
      case refine_1 =>
        change p.awaited = p.dispatched ++ ([] ++ Item.events q₁.toList ++ p.hand.toList) ++ p.ahead
        rw [ha, underway, hp, hl]
        rfl
      case refine_2 =>
        change Item.events q₁.toList = p.late
        rw [hn, hl']
        rfl

theorem dispatch (f : Flows p) (outcome : Outcome) : Flows (p.dispatch outcome) := by
  unfold Pipeline.dispatch
  split
  case h_2 => exact f
  case h_1 e hl =>
    have ha := f.account
    refine ⟨f.busy, f.channel, f.handle, f.queue, ?_, f.unwoken, f.single, f.reading, f.joined,
      f.handed, f.unmarked, fun h _ => f.marked h (by simp [hl]), nofun,
      fun _ => f.punctual (by simp [hl])⟩
    change p.awaited = (p.dispatched ++ [e]) ++ _ ++ p.ahead
    rw [ha]
    simp [underway, hl, Loop.hand, queued]

-- Going from one look at the connection to the next, the dispatch loop holds nothing.
theorem turn {l : Loop} (f : Flows p) (hl : p.loop ≠ .stopped) (hh : p.loop.hand = l.hand)
    (hs : l = .stopped → Item.events p.queued = []) : Flows { p with loop := l } := by
  have ha := f.account
  refine ⟨f.busy, f.channel, f.handle, f.queue, ?_, f.unwoken, f.single, f.reading, f.joined,
    f.handed, f.unmarked, fun h _ => f.marked h hl, fun h => ?_, fun _ => f.punctual hl⟩
  · rw [underway, hh] at ha
    exact ha
  · exact (hs h).trans (f.punctual hl).symm

theorem ask (f : Flows p) : Flows p.ask := by
  unfold Pipeline.ask
  split
  case h_2 => exact f
  case h_1 hl =>
    refine f.turn (by simp [hl]) ?_ ?_
    case refine_1 => rw [hl]; split <;> rfl
    case refine_2 => split <;> nofun

theorem look (f : Flows p) : Flows p.look := by
  unfold Pipeline.look
  split
  case h_2 => exact f
  case h_1 hl =>
    refine f.turn (by simp [hl]) ?_ ?_
    case refine_1 => rw [hl]; split <;> rfl
    case refine_2 =>
      split
      case isTrue he => rw [List.isEmpty_iff.mp he]; exact fun _ => rfl
      case isFalse   => nofun

end

end Flows

-- What holds when close has returned.
structure Over (p : Pipeline η) : Prop where
  stage   : p.stage = .returned
  loop    : p.loop = .stopped
  hand    : p.hand = none
  reading : p.connection.delivering = false
  account : p.due = p.dispatched ++ p.late ++ p.abandoned

theorem Flows.close {p : Pipeline η} (f : Flows p) : Flows p.close ∨ Over p.close := by
  have ha := f.account
  unfold Pipeline.close
  split
  case h_1 hs =>
    simp only [awaited, ahead, hs] at ha
    exact .inl ⟨by simp, f.channel, f.handle, f.queue, ha, fun _ => f.unwoken (.inl hs), f.single,
      by simp, by simp, f.handed, fun _ => f.unmarked (by simp [hs]), by simp, f.left, f.punctual⟩
  case h_2 hs =>
    have hu := f.unwoken (.inr hs)
    have hw := f.stream_wake
    refine .inl ⟨by simp, ?_, f.handle, f.queue, ?_, by simp, ?_, fun _ _ => ?_, by simp, f.handed,
      fun _ => f.unmarked (by simp [hs]), by simp, f.left, f.punctual⟩
    case refine_1 => rw [stream, hw]; exact congrArg (Option.map _) f.channel
    case refine_2 =>
      simp only [awaited, ahead, hs] at ha
      rw [← Item.ahead_append_shutdown hu, ← hw] at ha
      exact ha
    case refine_3 => rw [stream, hw, List.count_append, List.count_eq_zero.mpr hu]; decide
    case refine_4 => rw [stream, hw]; exact List.mem_append_right _ (List.mem_singleton.mpr rfl)
  case h_3 hs =>
    simp only [awaited, ahead, hs] at ha
    split
    case isTrue => exact .inl f
    case isFalse hd =>
      exact .inl ⟨by simp, f.channel, f.handle, f.queue, ha, by simp, f.single, by simp,
        fun _ => by simpa using hd, f.handed, fun _ => f.unmarked (by simp [hs]), by simp, f.left,
        f.punctual⟩
  case h_4 hs =>
    obtain ⟨q, hq⟩ := Option.isSome_iff_exists.mp f.queue
    have hp : (q.push .shutdown).toList = p.queued ++ [.shutdown] := by
      rw [q.toList_push, queued, hq]
      rfl
    have hu := f.unmarked (by simp [hs])
    simp only [Connection.enqueue_eq hq]
    refine .inl ⟨by simp, f.channel, f.handle, rfl, ?_, by simp, f.single, by simp,
      fun _ => f.joined (.inl hs), f.handed, by simp, fun _ _ => ?_, fun h => ?_, f.punctual⟩
    case refine_1 =>
      simp only [awaited, ahead, hs] at ha
      change p.due = p.dispatched ++ (_ ++ Item.events (q.push .shutdown).toList ++ _) ++ _
      rw [hp, Item.events_append, Item.events_shutdown, Item.events_nil, List.append_nil]
      exact ha
    case refine_2 =>
      change Item.Closed (q.push .shutdown).toList
      rw [hp]
      exact Item.closed_append_shutdown hu
    case refine_3 =>
      change Item.events (q.push .shutdown).toList = p.late
      rw [hp, Item.events_append, f.left h]
      exact List.append_nil _
  case h_5 hs =>
    split
    case isFalse => exact .inl f
    case isTrue hl =>
      have hd := f.joined (.inr hs)
      have hh : p.hand = none := by
        cases hh : p.hand
        case none => rfl
        case some => simp [f.handed (by simp [hh])] at hd
      refine .inr ⟨rfl, hl, hh, hd, ?_⟩
      simpa [awaited, underway, ahead, hs, hl, hh, f.left hl, Loop.hand] using ha
  case h_6 hs => exact absurd hs f.busy

section

variable {p : Pipeline η}

theorem over_step (o : Over p) (m : Move η) :
    Over (p.step m) ∧ (p.step m).abandoned = p.abandoned := by
  have ⟨hs, hl, hh, hd, ha⟩ := o
  cases m
  case emit     => exact ⟨⟨hs, hl, hh, hd, ha⟩, rfl⟩
  case register => exact ⟨⟨hs, hl, hh, hd, ha⟩, rfl⟩
  all_goals simp [step, receive, push, pop, dispatch, ask, look, close, hs, hl, hh, hd, o]

theorem Flows.step (f : Flows p) (m : Move η) : Flows (p.step m) ∨ Over (p.step m) := by
  cases m
  case emit event       => exact .inl <| f.emit event
  case cut failure      => exact .inl <| f.cut failure
  case register g       => exact .inl <| f.register g
  case receive          => exact .inl f.receive
  case push             => exact .inl f.push
  case pop              => exact .inl f.pop
  case dispatch outcome => exact .inl <| f.dispatch outcome
  case ask              => exact .inl f.ask
  case look             => exact .inl f.look
  case close            => exact f.close

-- Induction on the moves.
theorem run_accounted (h : Flows p ∨ Over p) (moves : List (Move η)) :
    Flows (p.run moves) ∨ Over (p.run moves) := by
  induction moves generalizing p
  case nil => exact h
  case cons m moves ih => exact ih <| h.elim (·.step m) (.inr <| over_step · m |>.left)

end

-- The start cannot fail, since no fault is set.
theorem opened_eq (target : Target) (config : Config) (m : Memory) (global : Entry η)
    (timeout : Duration) :
    ∃ c : Connection (Faulty Memory) η,
      opened target config m global timeout =
        { connection := c, emitted := Item.events (c.backend.inner.channel.getD []) } ∧
      c.backend.inner = m.init target ∧ c.queue.isSome ∧ c.queue.map Queue.toList = some [] ∧
      c.backend.cut = none ∧ c.delivering := by
  refine ⟨_, rfl, ?_⟩
  have h := (Connection.start_ok
    (c := Connection.new target config ({ inner := m } : Faulty Memory) global) timeout
    rfl rfl).right
  rw [h]
  exact ⟨rfl, rfl, rfl, rfl, rfl⟩

theorem opened_flows (target : Target) (config : Config) (m : Memory) (global : Entry η)
    (timeout : Duration) : Flows (opened target config m global timeout) := by
  obtain ⟨c, hc, hb, hs, hq, -, hd⟩ := opened_eq target config m global timeout
  obtain ⟨events, he⟩ := m.init_channel target
  have hi : c.backend.inner.channel = some (events.map .event) := hb ▸ he
  have hn : Item.shutdown ∉ events.map Item.event := by simp
  rw [hc]
  refine ⟨nofun, ?_, hb ▸ (m.init_fresh target).left.handle, hs, ?_, fun _ => ?_, ?_, nofun,
    nofun, nofun, fun _ => ?_, nofun, nofun, fun _ => rfl⟩
  all_goals simp only [awaited, underway, ahead, stream, queued, hi, hq, Option.getD_some]
  case refine_2 => rfl
  case refine_3 => exact hn
  case refine_4 => rw [List.count_eq_zero.mpr hn]; exact Nat.zero_le 1
  case refine_5 => exact List.not_mem_nil

end Pipeline
end Coordination
