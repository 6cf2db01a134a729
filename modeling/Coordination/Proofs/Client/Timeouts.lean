import Coordination.Backend.Memory
import Coordination.Client
import Coordination.Proofs.Connection.Session

namespace Coordination

namespace Duration

variable {d e : Duration} {m n : Nat}

theorem millis_mono (h : d ≤ e) : d.millis ≤ e.millis :=
  Nat.div_le_div_right h

theorem ofMillis_le_ofMillis : ofMillis m ≤ ofMillis n ↔ m ≤ n :=
  Nat.mul_le_mul_right_iff (by decide)

theorem millis_ofMillis (n : Nat) : (ofMillis n).millis = n :=
  Nat.mul_div_cancel n (by decide)

theorem ofMillis_le_of_le_millis (h : n ≤ d.millis) : ofMillis n ≤ d :=
  Nat.mul_le_of_le_div _ _ _ h

end Duration

namespace Config

variable {c : Config}

theorem complaint?_eq_none :
    c.complaint? = none ↔ c.connectPollIntervalMs ≠ 0 ∧ c.sessionTimeoutMs ≠ 0 ∧
      ¬(c.connectPollIntervalMs > c.connectTimeoutMs && c.connectTimeoutMs > 0) ∧
      c.dispatchJoinGraceMs ≠ 0 := by
  grind [complaint?]

end Config

-- The lengths of time with a setter of their own.
inductive Timeout where
  | connect
  | session
  | grace
  deriving DecidableEq, Repr

namespace Timeout

variable {t : Timeout} {c : Config} {d e : Duration}

def put : Timeout → Duration → Config → Config
  | connect => Config.withConnectTimeout
  | session => Config.withSessionTimeout
  | grace   => Config.withDispatchJoinGrace

def inEffect : Timeout → Config → Duration
  | connect => Config.connectTimeout
  | session => Config.sessionTimeout
  | grace   => Config.dispatchJoinGrace

theorem toNat_toUInt64 (n : Nat) : n.toUInt64.toNat = n % UInt64.size := by
  simp [Nat.toUInt64, UInt64.size]

theorem toUInt64_eq_zero {n : Nat} : n.toUInt64 = 0 ↔ UInt64.size ∣ n := by
  rw [← UInt64.toNat_inj, toNat_toUInt64, Nat.dvd_iff_mod_eq_zero]
  rfl

theorem inEffect_put (t : Timeout) (d : Duration) (c : Config) :
    t.inEffect (t.put d c) = .ofMillis (d.millis % UInt64.size) := by
  rw [← toNat_toUInt64]
  cases t <;> rfl

theorem inEffect_put_le (t : Timeout) (c : Config) :
    t.inEffect (t.put d c) ≤ t.inEffect (t.put e c) ↔
      d.millis % UInt64.size ≤ e.millis % UInt64.size := by
  rw [inEffect_put, inEffect_put, Duration.ofMillis_le_ofMillis]

-- Of two times the longer one may be the shorter in effect only if the count starts again between
-- them. For all shorter times together: it has not started again yet, or is about to.
theorem all_inEffect_put_le (t : Timeout) (c : Config) (e : Duration) :
    (∀ d ≤ e, t.inEffect (t.put d c) ≤ t.inEffect (t.put e c)) ↔
      e.millis < UInt64.size ∨ UInt64.size ∣ e.millis + 1 := by
  simp only [inEffect_put_le]
  constructor
  case mp =>
    intro h
    refine (Nat.lt_or_ge e.millis UInt64.size).imp_right fun he => ?_
    have hl := h (.ofMillis (UInt64.size - 1)) (Duration.ofMillis_le_of_le_millis (by omega))
    rw [Duration.millis_ofMillis] at hl
    simp only [UInt64.size] at hl ⊢
    omega
  case mpr =>
    intro h d hd
    have hm := Duration.millis_mono hd
    simp only [UInt64.size] at h ⊢
    omega

-- Of a session's timeout and of the grace only zero is refused.
theorem complaint?_put (ht : t ≠ .connect) (hd : (t.put d c).complaint? = none) :
    (t.put e c).complaint? = none ↔ ¬UInt64.size ∣ e.millis := by
  simp only [Config.complaint?_eq_none, ← toUInt64_eq_zero] at hd ⊢
  cases t
  case connect => exact absurd rfl ht
  case session =>
    have ⟨hp, _, hc, hg⟩ := hd
    exact ⟨fun h => h.right.left, fun h => ⟨hp, h, hc, hg⟩⟩
  case grace =>
    have ⟨hp, hs, hc, _⟩ := hd
    exact ⟨fun h => h.right.right.right, fun h => ⟨hp, hs, hc, h⟩⟩

end Timeout

section

variable {β ε : Type} [Backend β] {backend : β}

theorem Connection.start_eq_ok {c : Connection β (Callback ε)} (timeout : Duration)
    (hr : c.running = false) :
    (∃ s, (c.start timeout).1 = .ok s) ↔
      (Backend.init c.target c.config.sessionTimeout c.backend).1 = .ok () := by
  rcases hi : Backend.init c.target c.config.sessionTimeout c.backend with ⟨e | ⟨⟩, backend⟩
  case error => simp [(start_error timeout hr hi).left]
  case ok    => simp [(start_ok timeout hr hi).left]

namespace ClientBuilder

variable {b : ClientBuilder} {global : Entry (Callback ε)}

theorem build_eq_ok :
    (∃ c, (b.build backend global).1 = .ok c) ↔
      b.config.complaint? = none ∧ ∃ target, Target.parse b.target = .ok target ∧
        (Backend.init target b.config.sessionTimeout backend).1 = .ok () := by
  unfold build
  cases Target.parse b.target
  case error => simp
  case ok target =>
    rw [Config.validate]
    cases b.config.complaint?
    case some => simp
    case none =>
      let c : Connection β (Callback ε) := .new target b.config backend global
      have h := Connection.start_eq_ok (c := c) b.config.connectTimeout rfl
      rcases hs : c.start b.config.connectTimeout with ⟨_ | _, c', records⟩
      all_goals
        rw [hs] at h
        simp only [c, Connection.new] at h hs
        simp [Connection.new, hs, ← h]

theorem build_of_complaint {target : Target} {reason : String}
    (hp : Target.parse b.target = .ok target) (hc : b.config.complaint? = some reason) :
    (b.build backend global).1 = .error (.config reason) := by
  simp [build, hp, Config.validate, hc]

-- The service starts sessions however long they may be.
def Lenient (backend : β) : Prop :=
  ∀ target s s', (Backend.init target s backend).1 = .ok () →
    (Backend.init target s' backend).1 = .ok ()

theorem build_put {t : Timeout} {d e : Duration} (hl : Lenient backend) (ht : t ≠ .connect)
    (hd : ∃ c, (({ b with config := t.put d b.config }).build backend global).1 = .ok c) :
    (∃ c, (({ b with config := t.put e b.config }).build backend global).1 = .ok c) ↔
      ¬UInt64.size ∣ e.millis := by
  rw [build_eq_ok] at hd ⊢
  obtain ⟨ha, target, hp, hi⟩ := hd
  rw [Timeout.complaint?_put ht ha]
  exact and_iff_left ⟨target, hp, hl target _ _ hi⟩

end ClientBuilder

namespace Timeout

-- A longer time is in effect as one that is not shorter, and is accepted where the shorter one is,
-- as far as the count of its milliseconds does not start again.
theorem ordered_iff (t : Timeout) (b : ClientBuilder) {backend : β}
    (hl : ClientBuilder.Lenient backend) (global : Entry (Callback ε)) :
    let timeout (d : Duration) := t.inEffect (t.put d b.config)
    let built (d : Duration) := (({ b with config := t.put d b.config }).build backend global).1
    (∀ d, timeout d = .ofMillis (d.millis % UInt64.size)) ∧
    (∀ d e, d ≤ e →
      (timeout d ≤ timeout e ↔ d.millis % UInt64.size ≤ e.millis % UInt64.size)) ∧
    (∀ e, (∀ d ≤ e, timeout d ≤ timeout e) ↔
      e.millis < UInt64.size ∨ UInt64.size ∣ e.millis + 1) ∧
    (t ≠ .connect → ∀ d e, d ≤ e → (∃ c, built d = .ok c) →
      ((∃ c, built e = .ok c) ↔ ¬UInt64.size ∣ e.millis)) := by
  intro timeout built
  refine ⟨fun d => ?_, fun d e _ => ?_, fun e => ?_, fun ht d e _ hd => ?_⟩
  case refine_1 => exact inEffect_put t d b.config
  case refine_2 => exact inEffect_put_le t b.config
  case refine_3 => exact all_inEffect_put_le t b.config e
  case refine_4 => exact ClientBuilder.build_put hl ht hd

end Timeout
end

theorem Memory.lenient (m : Memory) : ClientBuilder.Lenient m :=
  fun _ _ _ _ => rfl

namespace Timeout

theorem ordered_iff_session :
    let b : ClientBuilder := ⟨"h:1/a", {}⟩
    let global : Entry (Callback Unit) := ⟨{ receiver := () }, none⟩
    let config (n : Nat) : Config := session.put (.ofMillis n) b.config
    let built (n : Nat) := (({ b with config := config n }).build (Memory.new 0) global).1
    ClientBuilder.Lenient (Memory.new 0) ∧ (∃ c, built 7 = .ok c) ∧
      session.inEffect (config (UInt64.size + 5)) = .ofMillis 5 ∧
      (∃ c, built (UInt64.size + 5) = .ok c) ∧ ¬∃ c, built (3 * UInt64.size) = .ok c := by
  intro b global config built
  have hl := Memory.lenient (Memory.new 0)
  have ⟨effect, _, _, accepted⟩ := ordered_iff session b hl global
  have parsed : Target.parse "h:1/a" = .ok ⟨"h:1/a", ["h:1"], some "/a"⟩ := rfl
  have h : ∃ c, built 7 = .ok c := ClientBuilder.build_eq_ok.mpr ⟨rfl, _, parsed, rfl⟩
  have longer {n : Nat} (hn : 7 ≤ n) : (∃ c, built n = .ok c) ↔ ¬UInt64.size ∣ n := by
    have := accepted nofun (.ofMillis 7) (.ofMillis n) (Duration.ofMillis_le_ofMillis.mpr hn) h
    rwa [Duration.millis_ofMillis] at this
  refine ⟨hl, h, effect _, (longer (by decide)).mpr (by decide), ?_⟩
  rw [longer (by decide)]
  exact not_not_intro ⟨3, rfl⟩

-- One millisecond more, and nothing is left of a timeout of half a billion years.
theorem longer_is_shorter :
    let b : ClientBuilder := ⟨"h:1", {}⟩
    let global : Entry (Callback Unit) := ⟨{ receiver := () }, none⟩
    let d : Duration := .ofMillis (UInt64.size - 1)
    let e : Duration := .ofMillis UInt64.size
    let built (d : Duration) :=
      (({ b with config := session.put d b.config }).build (Memory.new 0) global).1
    d ≤ e ∧ e ≤ Duration.max ∧
      (∀ t : Timeout, ¬t.inEffect (t.put d b.config) ≤ t.inEffect (t.put e b.config)) ∧
      (∃ c, built d = .ok c) ∧
      built e = .error (.config "session_timeout_ms must be greater than 0") := by
  intro b global d e built
  have parsed : Target.parse "h:1" = .ok ⟨"h:1", ["h:1"], none⟩ := rfl
  have accepted : (session.put d b.config).complaint? = none := by decide +kernel
  have refused : (session.put e b.config).complaint? =
      some "session_timeout_ms must be greater than 0" := by decide +kernel
  refine ⟨by decide, by decide, fun t => ?_, ?_, ?_⟩
  case refine_1 =>
    rw [inEffect_put_le]
    decide
  case refine_2 => exact ClientBuilder.build_eq_ok.mpr ⟨accepted, _, parsed, rfl⟩
  case refine_3 => exact ClientBuilder.build_of_complaint parsed refused

end Timeout
end Coordination
