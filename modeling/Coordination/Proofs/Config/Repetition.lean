import Coordination.Proofs.Config.Precedence

namespace Coordination

open SettingsLibrary

namespace Field

variable [SettingsLibrary] {f : Field} {c c' : Config} {settings : Settings}
  {vars : List (String × String)} {order : Nat → Order}

-- Of the two settings that the configurations give, a source leaves both or neither, and then the
-- next source does.
theorem won_again (lawful : Lawful) (hc : c.Storable) (hc' : c'.Storable)
    (h : f.value? (f.won order c settings vars) = some (f.of c')) :
    f.value? (f.won order c' settings vars) = some (f.of c') := by
  have ⟨single, _⟩ := Config.setting_spec lawful hc f
  have ⟨single', decoded'⟩ := Config.setting_spec lawful hc' f
  have below (v : Setting) : Settings.get? [(f.key, v)] f.key = some v := by simp [Settings.get?]
  rw [won] at h ⊢
  generalize leading f.key ((order 1).arrange settings) = file at h ⊢
  generalize leading f.key ((order 2).arrange _) = env at h ⊢
  rcases lawful.lay_singles (s := file) f.isKey_key (below _) (below _) single single' with
    ⟨kept, kept'⟩ | same
  case inr => rwa [← lawful.lay_local f.isKey_key rfl same]
  case inl =>
    rcases lawful.lay_singles (s := env) f.isKey_key kept kept' single single' with
      ⟨_, kept'⟩ | same
    case inl =>
      rw [kept']
      exact decoded'
    case inr => rwa [← same]

theorem told_again (h : f.told c settings vars = some (f.of c')) :
    f.told c' settings vars = some (f.of c') := by
  unfold told at h ⊢
  split at h
  case h_2 => rfl
  case h_4 => rfl
  all_goals exact h

end Field

namespace Config

section

variable [SettingsLibrary] {c c' : Config} {file : SettingsFile} {vars : List (String × String)}
  {order : Nat → Order} (lawful : Lawful)
include lawful

theorem overlay_storable (h : c.overlay (some file) vars order = .ok c') (hc : c'.Storable) :
    c'.overlay (some file) vars order = .ok c' := by
  have ⟨hs, settings, hf⟩ := of_overlay lawful h
  rw [overlay_eq_ok lawful hs hf] at h
  exact (overlay_eq_ok lawful hc hf).mpr fun f => Field.won_again lawful hs hc (h f)

theorem overlay_not_storable (h : ¬c.Storable) (file : Option SettingsFile)
    (vars : List (String × String)) (order : Nat → Order) :
    ∃ f : Field, c.overlay file vars order = .error (.outOfRange f.key) := by
  have ⟨f, he⟩ := layer_of_not_storable lawful h
  exact ⟨f, by rw [overlay, he]; rfl⟩

theorem overlay_plain {settings : Settings} (h : c.overlay (some file) vars order = .ok c')
    (hf : read file = .ok settings) (hs : settings.Clear vars)
    (hp : ∀ f : Field, f.Plain settings vars) (hc : c'.Storable) (order' : Nat → Order) :
    c'.overlay (some file) vars order' = .ok c' := by
  have ⟨hb, _⟩ := of_overlay lawful h
  rw [overlay_eq_ok lawful hb hf] at h
  refine (overlay_eq_ok lawful hc hf).mpr fun f => ?_
  have told : f.told c settings vars = some (f.of c') := by
    rw [← Field.value?_won lawful hb hs (hp f)]
    exact h f
  rw [Field.value?_won lawful hc hs (hp f)]
  exact Field.told_again told

-- What was loaded loads again as it is, if all of its counts are numbers that a setting can hold,
-- and the entries of the sources are taken in the same order, or no two of them are for one field.
-- If not all counts are, nothing can be laid over it.
theorem overlay_again_iff (h : c.overlay (some file) vars order = .ok c') :
    (c'.overlay (some file) vars order = .ok c' ↔ c'.Storable) ∧
    (∀ settings, read file = .ok settings → settings.Clear vars →
      (∀ f : Field, f.Plain settings vars) →
        ∀ order', c'.overlay (some file) vars order' = .ok c' ↔ c'.Storable) ∧
    (¬c'.Storable → ∀ file' vars' order', ∃ f : Field,
      c'.overlay file' vars' order' = .error (.outOfRange f.key)) := by
  refine ⟨⟨fun h => (of_overlay lawful h).left, overlay_storable lawful h⟩, ?_,
    overlay_not_storable lawful⟩
  intro settings hf hs hp order'
  exact ⟨fun h => (of_overlay lawful h).left, fun hc => overlay_plain lawful h hf hs hp hc order'⟩

end

theorem overlay_again_iff_rounded :
    let file : SettingsFile := ⟨"client.toml", some
      "session_timeout_ms = 2.5\ndispatch_mode = \"manual\"\n"⟩
    let vars := [("ZK__CLEAR_READS_ON_POP", "off")]
    let c : Config :=
      { sessionTimeoutMs := 3, dispatchMode := .manual, clearReadsOnPop := false }
    Toml.library.Lawful ∧ ({} : Config).overlay (some file) vars = .ok c ∧
      ∀ order, c.overlay (some file) vars order = .ok c := by
  intro file vars c
  have h : ({} : Config).overlay (some file) vars = .ok c := by decide +kernel
  have hn : Distinct vars := by decide +kernel
  have ⟨settings, hr, hs, ht, hp⟩ : ∃ settings ∈ (read file).toOption,
      Distinct settings ∧ (∀ e ∈ settings, Distinct (Setting.entries (some e.2))) ∧
        ∀ f ∈ Field.all, f.Plain settings vars := by
    decide +kernel
  have ⟨_, again, _⟩ := overlay_again_iff Toml.lawful h
  refine ⟨Toml.lawful, h, fun order => ?_⟩
  refine (again settings (mem_toOption.mp hr) ⟨hs, ht, hn⟩ (fun f => hp f f.mem_all) order).mpr ?_
  exact ⟨by decide, by decide, by decide, by decide⟩

-- A count in a text may be any of 64 bits.
theorem overlay_again_refused :
    let file : SettingsFile := ⟨"client.toml", some
      "session_timeout_ms = \"18446744073709551615\"\n"⟩
    let c : Config := { sessionTimeoutMs := 18446744073709551615 }
    ({} : Config).overlay (some file) [] = .ok c ∧
      c.overlay (some file) [] = .error (.outOfRange "session_timeout_ms") := by
  decide +kernel

end Config
end Coordination
