import Std.Data.ExtTreeMap

namespace Coordination

structure RequestId where
  number : Int
  deriving DecidableEq, Repr, Inhabited

namespace RequestId

-- Tags the notices that concern the whole session.
def global : RequestId := ⟨-1⟩

def first : RequestId := ⟨1⟩

def isGlobal (id : RequestId) : Bool :=
  id == global

instance : Ord RequestId := ⟨compareOn number⟩

instance : Std.TransOrd RequestId :=
  inferInstanceAs (Std.TransCmp (compareOn number))

instance : Std.LawfulEqOrd RequestId where
  eq_of_compare {a b} h := by
    obtain ⟨a⟩ := a
    obtain ⟨b⟩ := b
    exact congrArg RequestId.mk (Std.LawfulEqOrd.eq_of_compare (h : compare a b = .eq))

end RequestId
end Coordination
