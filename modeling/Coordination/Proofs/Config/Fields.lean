import Coordination.Config.Layering
import Coordination.Proofs.Config.Lawful

namespace Coordination

open SettingsLibrary

inductive Field where
  | connectTimeout
  | sessionTimeout
  | connectPollInterval
  | dispatchJoinGrace
  | dispatchMode
  | clearReadsOnPop
  deriving DecidableEq, Repr

namespace Field

def all : List Field :=
  [connectTimeout, sessionTimeout, connectPollInterval, dispatchJoinGrace, dispatchMode,
    clearReadsOnPop]

theorem mem_all (f : Field) : f ∈ all := by
  cases f <;> decide

def key : Field → String
  | connectTimeout      => "connect_timeout_ms"
  | sessionTimeout      => "session_timeout_ms"
  | connectPollInterval => "connect_poll_interval_ms"
  | dispatchJoinGrace   => "dispatch_join_grace_ms"
  | dispatchMode        => "dispatch_mode"
  | clearReadsOnPop     => "clear_reads_on_pop"

theorem isKey_key (f : Field) : IsKey f.key := by
  cases f <;> decide +kernel

def Value : Field → Type
  | dispatchMode    => DispatchMode
  | clearReadsOnPop => Bool
  | _               => UInt64

instance : (f : Field) → DecidableEq f.Value
  | connectTimeout | sessionTimeout | connectPollInterval | dispatchJoinGrace =>
    inferInstanceAs (DecidableEq UInt64)
  | dispatchMode    => inferInstanceAs (DecidableEq DispatchMode)
  | clearReadsOnPop => inferInstanceAs (DecidableEq Bool)

def of (c : Config) : (f : Field) → f.Value
  | connectTimeout      => c.connectTimeoutMs
  | sessionTimeout      => c.sessionTimeoutMs
  | connectPollInterval => c.connectPollIntervalMs
  | dispatchJoinGrace   => c.dispatchJoinGraceMs
  | dispatchMode        => c.dispatchMode
  | clearReadsOnPop     => c.clearReadsOnPop

variable [SettingsLibrary]

def decode : (f : Field) → Setting → Option f.Value
  | connectTimeout | sessionTimeout | connectPollInterval | dispatchJoinGrace => count?
  | dispatchMode    => Config.mode?
  | clearReadsOnPop => switch?

-- The value for a field, given what is set for it, if anything is.
def value? (f : Field) : Option Setting → Option f.Value
  | some v => f.decode v
  | none => some (f.of {})

def setting (c : Config) : Field → Setting
  | connectTimeout      => (ofCount? c.connectTimeoutMs).getD .absent
  | sessionTimeout      => (ofCount? c.sessionTimeoutMs).getD .absent
  | connectPollInterval => (ofCount? c.connectPollIntervalMs).getD .absent
  | dispatchJoinGrace   => (ofCount? c.dispatchJoinGraceMs).getD .absent
  | dispatchMode        => ofWord c.dispatchMode.word
  | clearReadsOnPop     => ofSwitch c.clearReadsOnPop

variable {c c' : Config} {f : Field} {s : Settings} {won : Field → Option Setting}

theorem decode_congr {v w : Setting} (h : Alike v w) : f.decode v = f.decode w := by
  cases f
  case dispatchMode    => exact congrArg (Option.bind · _) (h.variant _)
  case clearReadsOnPop => exact h.switch
  all_goals exact h.count

theorem exists_config (h : ∀ f, ∃ a, value? f (won f) = some a) :
    ∃ c, ∀ f, value? f (won f) = some (f.of c) := by
  have ⟨a₁, h₁⟩ := h connectTimeout
  have ⟨a₂, h₂⟩ := h sessionTimeout
  have ⟨a₃, h₃⟩ := h connectPollInterval
  have ⟨a₄, h₄⟩ := h dispatchJoinGrace
  have ⟨a₅, h₅⟩ := h dispatchMode
  have ⟨a₆, h₆⟩ := h clearReadsOnPop
  refine ⟨⟨a₁, a₂, a₃, a₄, a₅, a₆⟩, fun f => ?_⟩
  cases f <;> assumption

end Field

namespace Config

variable {c c' : Config}

-- The counts of the configuration are numbers that a setting can hold.
structure Storable (c : Config) : Prop where
  connectTimeout      : c.connectTimeoutMs.toNat ≤ Setting.largestInteger
  sessionTimeout      : c.sessionTimeoutMs.toNat ≤ Setting.largestInteger
  connectPollInterval : c.connectPollIntervalMs.toNat ≤ Setting.largestInteger
  dispatchJoinGrace   : c.dispatchJoinGraceMs.toNat ≤ Setting.largestInteger

variable [SettingsLibrary] (lawful : Lawful)
include lawful

theorem setting_spec (h : c.Storable) (f : Field) :
    (f.setting c).IsSingle ∧ f.decode (f.setting c) = some (f.of c) := by
  have count {n : UInt64} (h : n.toNat ≤ Setting.largestInteger) :
      ((ofCount? n).getD .absent).IsSingle ∧ count? ((ofCount? n).getD .absent) = some n := by
    obtain ⟨v, hv, hs, hc⟩ := lawful.ofCount?_of_le h
    rw [hv]
    exact ⟨hs, hc⟩
  cases f
  case connectTimeout      => exact count h.connectTimeout
  case sessionTimeout      => exact count h.sessionTimeout
  case connectPollInterval => exact count h.connectPollInterval
  case dispatchJoinGrace   => exact count h.dispatchJoinGrace
  case clearReadsOnPop => exact ⟨lawful.ofSwitch_single _, lawful.switch?_ofSwitch _⟩
  case dispatchMode =>
    have words : ∀ w ∈ [DispatchMode.thread, .manual].map DispatchMode.word, IsKey w := by
      decide +kernel
    refine ⟨lawful.ofWord_single _, ?_⟩
    simp only [Field.decode, Field.setting, mode?]
    rw [lawful.variant?_ofWord words (by cases c.dispatchMode <;> decide)]
    cases hm : c.dispatchMode <;> simp [Field.of, hm] <;> rfl

theorem countSetting_of_le {key : String} {n : UInt64} (h : n.toNat ≤ Setting.largestInteger) :
    countSetting key n = .ok (key, (ofCount? n).getD .absent) := by
  obtain ⟨v, hv, _⟩ := lawful.ofCount?_of_le h
  rw [countSetting, hv]
  rfl

theorem countSetting_of_lt {key : String} {n : UInt64} (h : ¬n.toNat ≤ Setting.largestInteger) :
    countSetting key n = .error (.outOfRange key) := by
  rw [countSetting, lawful.ofCount?_of_lt h]

omit lawful in
def spelled (c : Config) : Settings :=
  Field.all.map fun f => (f.key, f.setting c)

theorem layer_of_storable (h : c.Storable) : c.layer = .ok c.spelled := by
  rw [layer, countSetting_of_le lawful h.connectTimeout, countSetting_of_le lawful h.sessionTimeout,
    countSetting_of_le lawful h.connectPollInterval, countSetting_of_le lawful h.dispatchJoinGrace]
  rfl

-- The first count that is too large is what keeps a configuration from being a layer.
theorem layer_of_not_storable (h : ¬c.Storable) :
    ∃ f : Field, c.layer = .error (.outOfRange f.key) := by
  by_cases h₁ : c.connectTimeoutMs.toNat ≤ Setting.largestInteger
  case neg => exact ⟨.connectTimeout, by rw [layer, countSetting_of_lt lawful h₁]; rfl⟩
  by_cases h₂ : c.sessionTimeoutMs.toNat ≤ Setting.largestInteger
  case neg =>
    refine ⟨.sessionTimeout, ?_⟩
    rw [layer, countSetting_of_le lawful h₁, countSetting_of_lt lawful h₂]
    rfl
  by_cases h₃ : c.connectPollIntervalMs.toNat ≤ Setting.largestInteger
  case neg =>
    refine ⟨.connectPollInterval, ?_⟩
    rw [layer, countSetting_of_le lawful h₁, countSetting_of_le lawful h₂,
      countSetting_of_lt lawful h₃]
    rfl
  by_cases h₄ : c.dispatchJoinGraceMs.toNat ≤ Setting.largestInteger
  case neg =>
    refine ⟨.dispatchJoinGrace, ?_⟩
    rw [layer, countSetting_of_le lawful h₁, countSetting_of_le lawful h₂,
      countSetting_of_le lawful h₃, countSetting_of_lt lawful h₄]
    rfl
  exact absurd ⟨h₁, h₂, h₃, h₄⟩ h

theorem leading_spelled (c : Config) (f : Field) :
    leading f.key c.spelled = [(f.key, f.setting c)] := by
  have head (g : Field) : Text.lower (head g.key) = g.key :=
    lawful.lower_head g.isKey_key g.isKey_key.lower_eq
  simp only [leading, spelled, List.filter_map, Function.comp_def, head]
  cases f <;> rfl

end Config

namespace Config

instance {α : Type} [DecidableEq α] : DecidableEq (Except LoadError α)
  | .ok a, .ok a' => decidable_of_iff (a = a') ⟨congrArg _, Except.ok.inj⟩
  | .error e, .error e' => decidable_of_iff (e = e') ⟨congrArg _, Except.error.inj⟩
  | .ok _, .error _ | .error _, .ok _ => isFalse nofun

theorem mem_toOption {α : Type} {x : Except LoadError α} {a : α} :
    a ∈ x.toOption ↔ x = .ok a := by
  cases x <;> simp [Except.toOption]

theorem field_eq_ok {α : Type} {key : String} {decode : Setting → Option α} {default a : α}
    {s : Settings} : field key decode default s = .ok a ↔
      (match s.get? key with
        | some v => decode v
        | none => some default) = some a := by
  unfold field
  cases s.get? key
  case none => simp
  case some v => cases hd : decode v <;> simp [hd]

theorem bind_eq_ok {α β : Type} {x : Except LoadError α} {g : α → Except LoadError β} {b : β} :
    (x >>= g) = .ok b ↔ ∃ a, x = .ok a ∧ g a = .ok b := by
  cases x
  case error => exact iff_of_false nofun nofun
  case ok a  => exact ⟨fun h => ⟨a, rfl, h⟩, fun ⟨_, h, hg⟩ => by cases h; exact hg⟩

variable [SettingsLibrary] {c c' : Config} {s settings : Settings} {file : SettingsFile}
  {vars : List (String × String)} {order : Nat → Order}

-- Settings stand for the configuration that has in each field what is set for it.
theorem ofSettings_eq_ok :
    ofSettings s = .ok c ↔ ∀ f : Field, f.value? (s.get? f.key) = some (f.of c) := by
  simp only [ofSettings, bind_eq_ok, field_eq_ok]
  constructor
  case mp =>
    rintro ⟨a₁, h₁, a₂, h₂, a₃, h₃, a₄, h₄, a₅, h₅, a₆, h₆, hp⟩ f
    cases hp
    cases f
    case connectTimeout      => exact h₁
    case sessionTimeout      => exact h₂
    case connectPollInterval => exact h₃
    case dispatchJoinGrace   => exact h₄
    case dispatchMode        => exact h₅
    case clearReadsOnPop     => exact h₆
  case mpr =>
    intro h
    exact ⟨_, h .connectTimeout, _, h .sessionTimeout, _, h .connectPollInterval,
      _, h .dispatchJoinGrace, _, h .dispatchMode, _, h .clearReadsOnPop, rfl⟩

theorem ofSettings_eq_error :
    (∃ e, ofSettings s = .error e) ↔ ∃ f : Field, f.value? (s.get? f.key) = none := by
  constructor
  case mp =>
    rintro ⟨e, he⟩
    refine Classical.byContradiction fun hn => ?_
    have ⟨c, hc⟩ := Field.exists_config fun f =>
      Option.ne_none_iff_exists'.mp fun hf => hn ⟨f, hf⟩
    rw [ofSettings_eq_ok.mpr hc] at he
    cases he
  case mpr =>
    rintro ⟨f, hf⟩
    cases hs : ofSettings s
    case error e => exact ⟨e, rfl⟩
    case ok c =>
      have := ofSettings_eq_ok.mp hs f
      rw [hf] at this
      cases this

end Config

-- What becomes of the setting that a configuration gives for a field: what the entries that lead to
-- the field make of it, first those of the file and then those of the environment.
def Field.won [SettingsLibrary] (f : Field) (order : Nat → Order) (c : Config) (settings : Settings)
    (vars : List (String × String)) : Option Setting :=
  let file := leading f.key ((order 1).arrange settings)
  let environment := leading f.key ((order 2).arrange (environment Config.variableStyle vars))
  (lay environment (lay file [(f.key, f.setting c)])).get? f.key

namespace Config

variable [SettingsLibrary] {c c' : Config} {settings : Settings} {file : SettingsFile}
  {vars : List (String × String)} {order : Nat → Order} (lawful : Lawful)
include lawful

theorem get?_merge (h : c.Storable) (f : Field) :
    (merge order [c.spelled, settings, environment variableStyle vars]).get? f.key =
      f.won order c settings vars := by
  have hb : (lay ((order 0).arrange c.spelled) []).get? f.key = some (f.setting c) := by
    have hs := leading_spelled lawful c f
    refine lawful.lay_value f.isKey_key ?_ f.isKey_key.lower_eq fun es he => ?_
    case refine_1 => rw [leading_arrange (order 0) (by simp [hs]), hs]
    case refine_2 =>
      have hb := (setting_spec lawful h f).left
      rw [he] at hb
      exact hb
  refine lawful.lay_local f.isKey_key (leading_leading ..).symm ?_
  refine lawful.lay_local f.isKey_key (leading_leading ..).symm ?_
  exact hb.trans (by simp [Settings.get?])

theorem overlay_eq (h : c.Storable) (hf : read file = .ok settings) :
    c.overlay (some file) vars order =
      ofSettings (merge order [c.spelled, settings, environment variableStyle vars]) := by
  simp only [overlay, layer_of_storable lawful h, hf]
  rfl

theorem overlay_eq_ok (h : c.Storable) (hf : read file = .ok settings) :
    c.overlay (some file) vars order = .ok c' ↔
      ∀ f : Field, f.value? (f.won order c settings vars) = some (f.of c') := by
  simp only [overlay_eq lawful h hf, ofSettings_eq_ok, get?_merge lawful h]

theorem overlay_eq_error (h : c.Storable) (hf : read file = .ok settings) :
    (∃ e, c.overlay (some file) vars order = .error e) ↔
      ∃ f : Field, f.value? (f.won order c settings vars) = none := by
  simp only [overlay_eq lawful h hf, ofSettings_eq_error, get?_merge lawful h]

-- Whatever could be laid over a configuration, it had to be a layer first.
theorem of_overlay (h : c.overlay (some file) vars order = .ok c') :
    c.Storable ∧ ∃ settings, read file = .ok settings := by
  simp only [overlay, bind_eq_ok] at h
  obtain ⟨_, hl, settings, hf, _⟩ := h
  refine ⟨Classical.byContradiction fun hn => ?_, settings, hf⟩
  have ⟨f, he⟩ := layer_of_not_storable lawful hn
  rw [he] at hl
  cases hl

end Config
end Coordination
