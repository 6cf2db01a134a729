import Coordination.Proofs.Config.Fields
import Coordination.Proofs.Toml.Library

namespace Coordination

open SettingsLibrary

theorem Distinct.filter_eq {α : Type} {s : List (String × α)} (h : Distinct s) (key : String) :
    s.filter (fun e => Text.lower e.1 = key) = (s.find? fun e => Text.lower e.1 = key).toList := by
  induction s
  case nil => rfl
  case cons e s ih =>
    by_cases he : Text.lower e.1 = key
    case neg => simpa [he] using ih h.tail
    case pos =>
      have hs : s.filter (fun e => Text.lower e.1 = key) = [] :=
        List.filter_eq_nil_iff.mpr fun e' he' => by simpa [← he] using h.ne he'
      simp [he, hs]

-- No two keys of a file, of a table in it, or names of variables differ in case only.
structure Settings.Clear (settings : Settings) (vars : List (String × String)) : Prop where
  file   : Distinct settings
  tables : ∀ e ∈ settings, Distinct (Setting.entries (some e.2))
  vars   : Distinct vars

namespace Field

-- The entry of a file for the field.
def fromFile? (f : Field) (settings : Settings) : Option Setting :=
  (settings.find? fun e => Text.lower e.1 = f.key).map (·.2)

-- The variable is the field's. An empty one counts as not set.
def Names (f : Field) (v : String × String) : Prop :=
  Text.lower v.1 = "zk__" ++ f.key ∧ v.2 ≠ ""

instance (f : Field) (v : String × String) : Decidable (f.Names v) :=
  inferInstanceAs (Decidable (_ ∧ _))

def fromVars? (f : Field) (vars : List (String × String)) : Option String :=
  (vars.find? fun v => f.Names v).map (·.2)

theorem fromVars?_cons (f : Field) (v : String × String) (vars : List (String × String)) :
    f.fromVars? (v :: vars) = if f.Names v then some v.2 else f.fromVars? vars := by
  by_cases h : f.Names v <;> simp [fromVars?, h]

theorem fromVars?_eq_none {f : Field} {vars : List (String × String)} (h : ∀ v ∈ vars, ¬f.Names v) :
    f.fromVars? vars = none :=
  Option.map_eq_none_iff.mpr <| List.find?_eq_none.mpr fun v hv => mt of_decide_eq_true (h v hv)

variable [SettingsLibrary]

-- If the key leads to the field, it does not lead any further.
def Direct (f : Field) (key : String) : Prop :=
  Text.lower (head key) = f.key → Text.lower key = f.key

instance (f : Field) (key : String) : Decidable (f.Direct key) :=
  inferInstanceAs (Decidable (_ → _))

-- No key is a path further into the field; in a file that is of no account once a variable is set.
structure Plain (f : Field) (settings : Settings) (vars : List (String × String)) : Prop where
  file : f.fromVars? vars = none → ∀ e ∈ settings, f.Direct e.1
  vars : ∀ v ∈ vars, ∀ e ∈ ofVariable? Config.variableStyle v, f.Direct e.1

-- What the first to speak of the field says: the environment, the file, the configuration.
def told (f : Field) (c : Config) (settings : Settings) (vars : List (String × String)) :
    Option f.Value :=
  match f.fromVars? vars, f.fromFile? settings with
  | some value, _ => f.decode (parsed value)
  | none, some (.table []) => some (f.of c)
  | none, some v => f.decode v
  | none, none => some (f.of c)

variable {f : Field} {c : Config} {v : Setting} {settings : Settings} {order : Nat → Order}
  {vars : List (String × String)}

instance : Decidable (f.Plain settings vars) :=
  decidable_of_iff
    ((f.fromVars? vars = none → ∀ e ∈ settings, f.Direct e.1) ∧
      ∀ v ∈ vars, ∀ e ∈ ofVariable? Config.variableStyle v, f.Direct e.1)
    ⟨fun h => ⟨h.left, h.right⟩, fun h => ⟨h.file, h.vars⟩⟩

section

variable (lawful : Lawful)
include lawful

theorem leading_of_direct (h : ∀ e ∈ settings, f.Direct e.1) :
    leading f.key settings = settings.filter fun e => Text.lower e.1 = f.key := by
  refine List.filter_congr fun e he => decide_eq_decide.mpr ⟨h e he, ?_⟩
  exact lawful.lower_head f.isKey_key

theorem leading_file (hd : ∀ e ∈ settings, f.Direct e.1) (hs : Distinct settings) :
    leading f.key settings = (settings.find? fun e => Text.lower e.1 = f.key).toList := by
  rw [leading_of_direct lawful hd, hs.filter_eq]

theorem names_iff {v : String × String} :
    f.Names v ↔ ∃ w, ofVariable? Config.variableStyle v = some (f.key, w) := by
  have hs : ¬Config.variableStyle.separator.toList <:+: f.key.toList := by
    cases f <;> decide +kernel
  have hl : Text.lower (Config.variableStyle.lead ++ Config.variableStyle.separator) = "zk__" := by
    decide
  rw [lawful.ofVariable?_iff f.isKey_key hs, hl]
  exact and_congr_right fun _ => ⟨fun hv _ => hv, fun hv => hv rfl⟩

-- Of the variables that set the field's key there is one at most, by its name.
theorem leading_variables (hn : Distinct vars)
    (hd : ∀ v ∈ vars, ∀ e ∈ ofVariable? Config.variableStyle v, f.Direct e.1) :
    leading f.key (vars.filterMap (ofVariable? Config.variableStyle)) =
      ((f.fromVars? vars).map fun value => (f.key, parsed value)).toList := by
  induction vars
  case nil => rfl
  case cons v vars ih =>
    have ⟨hv, hd⟩ := List.forall_mem_cons.mp hd
    have ih := ih hn.tail hd
    by_cases hf : f.Names v
    case pos =>
      obtain ⟨w, hw⟩ := (names_iff lawful).mp hf
      have others : f.fromVars? vars = none := fromVars?_eq_none fun v' hv' hf' => by
        have he : Text.lower v'.1 = Text.lower v.1 := by rw [hf'.left, hf.left]
        exact hn.ne hv' he
      have here : Text.lower (head f.key) = f.key :=
        lawful.lower_head f.isKey_key f.isKey_key.lower_eq
      rw [List.filterMap_cons_some hw, leading_cons_of_eq here, ih, others, fromVars?_cons,
        if_pos hf, lawful.ofVariable?_parsed rfl hw]
      rfl
    case neg =>
      rw [fromVars?_cons, if_neg hf]
      cases hw : ofVariable? Config.variableStyle v
      case none => rwa [List.filterMap_cons_none hw]
      case some e =>
        obtain ⟨key, w⟩ := e
        have away : Text.lower (head key) ≠ f.key := by
          intro hl
          have direct : f.Direct key := hv (key, w) hw
          have hk : key = f.key := (lawful.lower_ofVariable? hw).symm.trans (direct hl)
          subst hk
          exact hf ((names_iff lawful).mpr ⟨w, hw⟩)
        rw [List.filterMap_cons_some hw, leading_cons_of_ne away, ih]

theorem leading_environment (hn : Distinct vars)
    (hd : ∀ v ∈ vars, ∀ e ∈ ofVariable? Config.variableStyle v, f.Direct e.1) :
    leading f.key ((order 2).arrange (environment Config.variableStyle vars)) =
      ((f.fromVars? vars).map fun value => (f.key, parsed value)).toList := by
  have hl := leading_variables lawful hn hd
  have h : (leading f.key (vars.filterMap
      (ofVariable? Config.variableStyle))).length ≤ 1 := by
    rw [hl]
    cases f.fromVars? vars <;> simp
  have he := lawful.environment_leading f.isKey_key h
  rw [leading_arrange (order 2) (by rwa [he]), he, hl]

-- With no variable set for the field, it is up to the file.
theorem value?_file (hc : c.Storable) (hd : ∀ e ∈ settings, f.Direct e.1) (hs : Distinct settings)
    (ht : ∀ e ∈ settings, Distinct (Setting.entries (some e.2))) :
    f.value? ((lay (leading f.key settings) [(f.key, f.setting c)]).get? f.key) =
      f.told c settings [] := by
  obtain ⟨single, decoded⟩ := Config.setting_spec lawful hc f
  have below : Settings.get? [(f.key, f.setting c)] f.key = some (f.setting c) := by
    simp [Settings.get?]
  have hl := leading_file lawful hd hs
  rw [told, fromFile?]
  cases he : settings.find? fun e => Text.lower e.1 = f.key
  case none =>
    rw [he, Option.toList_none] at hl
    rw [hl, lawful.lay_nil, below]
    exact decoded
  case some e =>
    obtain ⟨name, v⟩ := e
    rw [he, Option.toList_some] at hl
    have named : Text.lower name = f.key := by simpa using List.find?_some he
    have only := hl ▸ leading_leading f.key settings
    rw [hl]
    have replaced (hv : ∀ es, v ≠ .table es) :
        f.value? ((lay [(name, v)] [(f.key, f.setting c)]).get? f.key) = f.decode v := by
      rw [lawful.lay_value f.isKey_key only named hv, value?]
    cases v
    case table es =>
      rcases es with _ | ⟨e, es⟩
      case nil =>
        rw [lawful.lay_empty f.isKey_key only named below]
        exact decoded
      case cons =>
        obtain ⟨v, hv, alike⟩ := lawful.lay_table f.isKey_key only named (List.cons_ne_nil e es)
          (ht _ (List.mem_of_find?_eq_some he)) below single
        rw [hv]
        exact decode_congr alike
    all_goals exact replaced (by simp)

theorem value?_won (hc : c.Storable) (hs : settings.Clear vars) (h : f.Plain settings vars) :
    f.value? (f.won order c settings vars) = f.told c settings vars := by
  rw [won, leading_environment lawful hs.vars h.vars]
  cases hval : f.fromVars? vars
  case some value =>
    have told : f.told c settings vars = f.decode (parsed value) := by simp only [told, hval]
    have only : leading f.key [(f.key, parsed value)] = [(f.key, parsed value)] :=
      lawful.leading_singleton f.isKey_key
    rw [Option.map_some, Option.toList_some, lawful.lay_value f.isKey_key only
      f.isKey_key.lower_eq (lawful.parsed_ne_table value), value?, told]
  case none =>
    have told : f.told c settings vars = f.told c settings [] := by simp only [told, hval]; rfl
    have arranged : leading f.key ((order 1).arrange settings) = leading f.key settings := by
      refine leading_arrange (order 1) ?_
      rw [leading_file lawful (h.file hval) hs.file]
      cases settings.find? _ <;> simp
    rw [Option.map_none, Option.toList_none, lawful.lay_nil, arranged, told]
    exact value?_file lawful hc (h.file hval) hs.file hs.tables

end

end Field

namespace Config

section

variable [SettingsLibrary] {c : Config} {file : SettingsFile} {settings : Settings}
  {vars : List (String × String)}

theorem load_eq (file : SettingsFile) (vars : List (String × String)) (order : Nat → Order) :
    load (some file) vars order = ({} : Config).overlay (some file) vars order := by
  simp only [load, overlay]
  rfl

-- The configuration that comes out has in each field what the setting that won decodes to, and
-- there is none only if one of them decodes to nothing. A setting wins by the source that it stands
-- in, whatever else there is.
theorem overlay_layered (lawful : Lawful) (hc : c.Storable) (hf : read file = .ok settings)
    (hs : settings.Clear vars) (order : Nat → Order) :
    ((∃ e, c.overlay (some file) vars order = .error e) ↔
      ∃ f : Field, f.value? (f.won order c settings vars) = none) ∧
    (∀ c', c.overlay (some file) vars order = .ok c' ↔
      ∀ f : Field, f.value? (f.won order c settings vars) = some (f.of c')) ∧
    (∀ f : Field, f.Plain settings vars →
      f.value? (f.won order c settings vars) = f.told c settings vars) ∧
    ∀ file vars order,
      load (some file) vars order = ({} : Config).overlay (some file) vars order :=
  ⟨overlay_eq_error lawful hc hf, fun _ => overlay_eq_ok lawful hc hf,
    fun _ => Field.value?_won lawful hc hs, load_eq⟩

end

-- A number in the file, a word in the environment over one in the file, a header without keys, a
-- variable without a value.
theorem overlay_layered_mixed :
    let file : SettingsFile := ⟨"client.toml", some
      "Session_Timeout_Ms = 2.5\ndispatch_mode = \"manual\"\nother = [1]\n[clear_reads_on_pop]\n"⟩
    let vars := [("zk__Dispatch_Mode", "Thread"), ("ZK__CONNECT_TIMEOUT_MS", ""), ("ZK__X", "y")]
    let c : Config := { connectTimeoutMs := 5, clearReadsOnPop := false }
    Toml.library.Lawful ∧ c.Storable ∧
      (∃ settings, read file = .ok settings ∧ settings.Clear vars) ∧
      ∀ order, c.overlay (some file) vars order = .ok { c with sessionTimeoutMs := 3 } := by
  intro file vars c
  have hc : c.Storable := ⟨by decide, by decide, by decide, by decide⟩
  have hn : Distinct vars := by decide +kernel
  -- The file is read once, for all that is to be known of it.
  have ⟨settings, hr, hs, ht, hp⟩ : ∃ settings ∈ (read file).toOption,
      Distinct settings ∧ (∀ e ∈ settings, Distinct (Setting.entries (some e.2))) ∧
        ∀ f ∈ Field.all, f.Plain settings vars ∧
          f.told c settings vars = some (f.of { c with sessionTimeoutMs := 3 }) := by
    decide +kernel
  have hf : read file = .ok settings := mem_toOption.mp hr
  refine ⟨Toml.lawful, hc, ⟨settings, hf, hs, ht, hn⟩, fun order => ?_⟩
  have ⟨_, loaded, won, _⟩ := overlay_layered Toml.lawful hc hf ⟨hs, ht, hn⟩ order
  refine (loaded _).mpr fun f => ?_
  have ⟨plain, told⟩ := hp f f.mem_all
  exact (won f plain).trans told

-- A key that is no field's, but leads into one, is not without effect, and a header without keys is
-- no value that a field has to make sense of.
theorem unknown_key_counts :
    let odd : SettingsFile := ⟨"client.toml", some "\"session_timeout_ms.x\" = 5\n"⟩
    let empty : SettingsFile := ⟨"client.toml", some "[session_timeout_ms]\n"⟩
    let f : Field := .sessionTimeout
    (∃ settings, read odd = .ok settings ∧ ∀ f : Field, f.fromFile? settings = none) ∧
      ({} : Config).overlay (some odd) [] = .error (.undecodable f.key) ∧
      (∃ settings, read empty = .ok settings ∧ (f.fromFile? settings).map f.decode = some none) ∧
      ({} : Config).overlay (some empty) [] = .ok {} := by
  intro odd empty f
  have ⟨s, hs, silent⟩ : ∃ s ∈ (read odd).toOption, ∀ f ∈ Field.all, f.fromFile? s = none := by
    decide +kernel
  have ⟨s', hs', senseless⟩ : ∃ s ∈ (read empty).toOption,
      (f.fromFile? s).map f.decode = some none := by
    decide +kernel
  have refused : ({} : Config).overlay (some odd) [] = .error (.undecodable f.key) := by
    decide +kernel
  have kept : ({} : Config).overlay (some empty) [] = .ok {} := by decide +kernel
  exact ⟨⟨s, mem_toOption.mp hs, fun f => silent f f.mem_all⟩, refused,
    ⟨s', mem_toOption.mp hs', senseless⟩, kept⟩

end Config
end Coordination
