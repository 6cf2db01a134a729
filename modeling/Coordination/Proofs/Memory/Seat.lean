import Coordination.Client
import Coordination.Proofs.Memory.Children

namespace Coordination

open Coordination.Path

-- The statistics without the times, and with transactions counted from a later one on.
def Stat.since (zxid : Int) (s : Stat) : Stat :=
  { s with czxid := s.czxid - zxid, mzxid := s.mzxid - zxid, pzxid := s.pzxid - zxid,
           ctime := 0, mtime := 0 }

def Payload.since (zxid : Int) : Payload → Payload
  | data d s     => data d (s.map (·.since zxid))
  | stat s       => stat (s.map (·.since zxid))
  | children c s => children c (s.map (·.since zxid))
  | acl a s      => acl a (s.map (·.since zxid))
  | p            => p

def CompletionEvent.since (zxid : Int) (c : CompletionEvent) : CompletionEvent :=
  { c with payload := c.payload.since zxid }

def Event.since (zxid : Int) : Event → Event
  | completion c => completion (c.since zxid)
  | watch w      => watch w

def Reply.since (zxid : Int) (r : Reply) : Reply :=
  { r with payload := r.payload.since zxid }

namespace Node

def since (zxid : Int) (n : Node) : Node :=
  { n with stat := n.stat.since zxid }

variable {n : Node} {zxid k owner now : Int} {data : ByteArray} {acl : List Acl}

theorem since_new :
    (Node.new data acl zxid owner now).since k = Node.new data acl (zxid - k) owner 0 :=
  rfl

theorem since_childCreated : (n.childCreated zxid).since k = (n.since k).childCreated (zxid - k) :=
  rfl

theorem since_childDeleted : (n.childDeleted zxid).since k = (n.since k).childDeleted (zxid - k) :=
  rfl

theorem since_replaceData :
    (n.replaceData data zxid now).since k = (n.since k).replaceData data (zxid - k) 0 :=
  rfl

theorem since_replaceAcl : (n.replaceAcl acl).since k = (n.since k).replaceAcl acl :=
  rfl

@[simp] theorem isEphemeral_since : (n.since k).isEphemeral = n.isEphemeral :=
  rfl

end Node

-- A client's target, and the segments of its root.
structure Seat where
  target : Target
  base : List (List Char)
  proper : Proper base
  chroot : target.chroot = if base = [] then none else some (join base)

namespace Seat

variable {s s' : Seat} {a b : List (List Char)} {x : List Char}

-- The transactions it took to make the root.
def depth (s : Seat) : Int :=
  s.base.length

-- The full path for the segments of a path of the client.
def path (s : Seat) (a : List (List Char)) : String :=
  join (s.base ++ a)

theorem proper_path (h : Proper a) : Proper (s.base ++ a) :=
  proper_append.mpr ⟨s.proper, h⟩

theorem path_inj (ha : Proper a) (hb : Proper b) : s.path a = s.path b ↔ a = b :=
  (join_inj (proper_path ha) (proper_path hb)).trans (List.append_right_inj _)

theorem path_concat : s.path (a ++ [x]) = join (s.base ++ a ++ [x]) := by
  rw [path, List.append_assoc]

theorem parent?_path (h : '/' ∉ x) : parent? (s.path (a ++ [x])) = some (s.path a) := by
  rw [path_concat, parent?_join h]
  rfl

theorem withSequence_path (n : Nat) :
    withSequence (s.path (a ++ [x])) n = s.path (a ++ [x ++ sequenceDigits n]) := by
  rw [path_concat, withSequence_join, path_concat]

theorem path_eq_root (h : Proper a) : s.path a = "/" ↔ s.base = [] ∧ a = [] :=
  (join_eq_root (proper_path h)).trans List.append_eq_nil_iff

theorem fullPath (s : Seat) (h : Proper a) : s.target.fullPath (join a) = s.path a := by
  have hc := s.chroot
  by_cases hb : s.base = []
  case pos =>
    rw [if_pos hb] at hc
    simp only [Target.fullPath, hc, path, hb, List.nil_append]
  case neg =>
    rw [if_neg hb] at hc
    by_cases ha : a = []
    case pos => rw [ha, join, Target.fullPath_root hc, path, List.append_nil]
    case neg =>
      rw [Target.fullPath_of_ne hc (mt (join_eq_root h).mp ha)]
      refine String.ext ?_
      rw [String.toList_ofList, path, toList_join hb, toList_join ha, toList_join (by simp [hb]),
        spell_append]

theorem stripChroot (s : Seat) (h : Proper a) : s.target.stripChroot (s.path a) = join a := by
  have hc := s.chroot
  by_cases hb : s.base = []
  case pos =>
    rw [if_pos hb] at hc
    simp only [Target.stripChroot, hc, path, hb, List.nil_append]
  case neg =>
    rw [if_neg hb] at hc
    rw [← s.fullPath h, Target.strip_fullPath hc isAbsolute_join]

-- What a client takes from a payload.
def payload (s : Seat) (p : Payload) : Payload :=
  (p.strip s.target).since s.depth

def completion (s : Seat) (c : CompletionEvent) : CompletionEvent :=
  { c with payload := s.payload c.payload }

def event (s : Seat) : Event → Event
  | .completion c => .completion (s.completion c)
  | .watch w      => .watch w

def item (s : Seat) : Item → Item
  | .event e  => .event (s.event e)
  | .shutdown => .shutdown

-- The root of the client and what lies above it are there, and stay.
def Founded (s : Seat) (t : Tree) : Prop :=
  ∀ p, p <+: s.base → ∃ node, t[join p]? = some node ∧ node.isEphemeral = false

end Seat

namespace Tree

variable {t t' : Tree} {a b : List (List Char)} {name path : String}

theorem mem_children (h : Proper a) :
    name ∈ t.children (join a) ↔
      (name.toList ≠ [] ∧ '/' ∉ name.toList) ∧ join (a ++ [name.toList]) ∈ t := by
  simp only [children, List.mem_filterMap, childName?_join h, Std.ExtTreeMap.mem_keys]
  constructor
  case mp  => rintro ⟨_, hm, hn, hk⟩; exact ⟨hn, hk ▸ hm⟩
  case mpr => rintro ⟨hn, hm⟩; exact ⟨_, hm, hn, rfl⟩

-- The keys are sorted, and those of the children differ in the names only.
theorem children_sorted (h : Proper a) : (t.children (join a)).Pairwise (· < ·) := by
  refine t.keys_sorted.filterMap _ fun k k' hlt name hn name' hn' => ?_
  rw [childName?_join h] at hn hn'
  rw [hn.right, hn'.right, String.lt_iff, toList_join_concat, toList_join_concat] at hlt
  refine Decidable.byContradiction fun hle => ?_
  rw [String.lt_iff, List.not_lt] at hle
  exact List.not_lt.mpr (List.append_left_le (List.cons_le_cons_iff.mpr (.inr ⟨rfl, hle⟩))) hlt

theorem children_congr (ha : Proper a) (hb : Proper b)
    (h : ∀ x, x ≠ [] ∧ '/' ∉ x → (join (a ++ [x]) ∈ t ↔ join (b ++ [x]) ∈ t')) :
    t.children (join a) = t'.children (join b) := by
  refine eq_of_sorted (children_sorted ha) (children_sorted hb) fun name => ?_
  rw [mem_children ha, mem_children hb]
  exact and_congr_right (h name.toList)

end Tree
end Coordination
