import Coordination.Proofs.Memory.Anchored
import Coordination.Proofs.Paths.Grammar

namespace Coordination

open Coordination.Path

namespace Path

variable {root path : String}

-- A path that is not outside is the root, or has a slash behind it.
theorem Within.eq_or (h : Within root path) :
    path = root ∨ ∃ rest, path.toList = root.toList ++ '/' :: rest := by
  refine h.imp_right fun ⟨rest, he⟩ => ⟨rest, ?_⟩
  rw [← he, List.append_assoc, List.singleton_append]

end Path

namespace Target

variable {target : Target} {root path : String}

theorem length_fullPath (hc : target.chroot = some root) (h : path ≠ "/") :
    (target.fullPath path).length = root.length + path.length := by
  simp [fullPath, hc, h]

-- Nothing is its own image: below a chroot the paths get longer.
theorem fullPath_ne_self (hc : target.chroot = some root) (r : IsRoot root) :
    target.fullPath path ≠ path := by
  intro he
  have hl := r.two_le_length
  by_cases h : path = "/"
  case pos =>
    rw [h, fullPath_root hc] at he
    rw [he] at hl
    exact absurd hl (by decide)
  case neg =>
    have := length_fullPath hc h
    rw [he] at this
    omega

theorem stripChroot_below {rest : List Char} (hc : target.chroot = some root)
    (h : path.toList = root.toList ++ '/' :: rest) :
    target.stripChroot path = String.ofList ('/' :: rest) := by
  have he : path = String.ofList (root.toList ++ (String.ofList ('/' :: rest)).toList) :=
    String.ext (by simp [h])
  rw [he, stripChroot_append hc (by simp [IsAbsolute])]

theorem stripChroot_eq_self_iff (hc : target.chroot = some root) (r : IsRoot root) :
    target.stripChroot path = path ↔ ¬Within root path := by
  refine ⟨fun hs h => ?_, stripChroot_not_within hc⟩
  have hl := r.two_le_length
  rcases h.eq_or with rfl | ⟨rest, h⟩
  case inl =>
    rw [stripChroot_root hc] at hs
    rw [← hs] at hl
    exact absurd hl (by decide)
  case inr =>
    rw [stripChroot_below hc h] at hs
    rw [← hs, String.toList_ofList] at h
    have := congrArg List.length h
    rw [← String.length_toList] at hl
    rw [List.length_append] at this
    omega

-- What comes back the same is the chroot, or named by more than a slash behind it.
theorem fullPath_stripChroot_iff (hc : target.chroot = some root) (r : IsRoot root) :
    target.fullPath (target.stripChroot path) = path ↔
      path = root ∨ ∃ rest ≠ [], path.toList = root.toList ++ '/' :: rest := by
  constructor
  case mp =>
    intro h
    by_cases hw : Within root path
    case neg =>
      rw [stripChroot_not_within hc hw] at h
      exact absurd h (fullPath_ne_self hc r)
    case pos =>
      refine hw.eq_or.imp_right fun ⟨rest, hp⟩ => ⟨rest, fun hr => ?_, hp⟩
      subst hr
      rw [stripChroot_below hc hp] at h
      have hr : target.fullPath "/" = path := h
      rw [fullPath_root hc] at hr
      rw [hr] at hp
      simp at hp
  case mpr =>
    rintro (rfl | ⟨rest, hr, hp⟩)
    case inl => rw [stripChroot_root hc, fullPath_root hc]
    case inr => exact full_stripChroot hc hp hr

theorem stripChroot_fullPath (h : IsAbsolute path) :
    target.stripChroot (target.fullPath path) = path := by
  cases hc : target.chroot
  case none => simp [stripChroot, fullPath, hc]
  case some => exact strip_fullPath hc h

end Target

namespace Memory

variable {target : Target} {text : String}

-- The two directions undo each other, for a service in a session of any target.
theorem crossing_exact (h : Target.parse text = .ok target) (m : Memory) :
    let full := (m.init target).fullPath
    let strip := target.stripChroot
    (∀ path, IsAbsolute path → strip (full path) = path) ∧
    (∀ path path', IsAbsolute path → IsAbsolute path' → full path = full path' → path = path') ∧
    ∀ root ∈ target.chroot,
      (∀ path, strip path = path ↔ ¬Within root path) ∧
      ∀ path, full (strip path) = path ↔
        path = root ∨ ∃ rest ≠ [], path.toList = root.toList ++ '/' :: rest := by
  intro full strip
  have hf : full = target.fullPath := funext (Anchored.init m target).fullPath
  have hs : ∀ path, IsAbsolute path → strip (full path) = path :=
    fun path hp => hf ▸ Target.stripChroot_fullPath hp
  refine ⟨hs, fun path path' hp hp' he => ?_, fun root hc => ⟨fun path => ?_, fun path => ?_⟩⟩
  case refine_1 =>
    calc path = strip (full path) := (hs path hp).symm
      _ = strip (full path')      := by rw [he]
      _ = path'                   := hs path' hp'
  case refine_2 => exact Target.stripChroot_eq_self_iff hc (Target.isRoot_of_parse h hc)
  case refine_3 => exact hf ▸ Target.fullPath_stripChroot_iff hc (Target.isRoot_of_parse h hc)

-- A chroot that occurs again inside the path, a sibling of it, and a bare slash behind it.
theorem crossing_exact_repeated :
    let target : Target := ⟨"h/a", ["h"], some "/a"⟩
    let full := ((Memory.new 0).init target).fullPath
    let strip := target.stripChroot
    Target.parse "h/a" = .ok target ∧ strip (full "/a/a") = "/a/a" ∧ strip (full "//a/") = "//a/" ∧
      strip "/ab" = "/ab" ∧ full (strip "/a/a") = "/a/a" ∧ full (strip "/a/") ≠ "/a/" := by
  intro target full strip
  have h : Target.parse "h/a" = .ok target := rfl
  have ⟨back, _, border⟩ := crossing_exact h (Memory.new 0)
  have ⟨kept, again⟩ := border "/a" rfl
  refine ⟨h, back _ rfl, back _ rfl, (kept _).mpr (by decide), (again _).mpr (.inr ?_), ?_⟩
  case refine_1 => exact ⟨['a'], by decide, by decide⟩
  case refine_2 =>
    rw [Ne, again "/a/"]
    rintro (h | ⟨rest, hr, h⟩)
    case inl => exact absurd h (by decide)
    case inr => exact hr (by simpa using h)

end Memory
end Coordination
