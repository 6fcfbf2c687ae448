import WorkTracking.MemberSet.Traversal

/-!
Sets as they are read, together with their vocabularies. Two sets over one vocabulary are compared
by their bitmaps; sets over different vocabularies are compared by their members.
-/
namespace WorkTracking

structure SetView (V : Type) [BEq V] [Hashable V] where
  vocabulary : Vocabulary V
  set : MemberSet

namespace SetView

variable {V : Type} [DecidableEq V] [Hashable V]

def members (s : SetView V) : Bitmap := s.set.members

def size (s : SetView V) : Nat := s.set.size

def isEmpty (s : SetView V) : Bool := s.set.isEmpty

/-- Values unknown to the vocabulary are no members. -/
def contains (s : SetView V) (v : V) : Bool :=
  (s.vocabulary.ordinal? v).any s.members.contains

def traverse (s : SetView V) : Traversal V := .start s.vocabulary.current s.members

/-- The members, in ascending order of ordinals. -/
def toList (s : SetView V) : List V := s.traverse.drain.1

def containsValues (s : SetView V) (vs : List V) : Bool := vs.all s.contains

def sameVocabulary (s t : SetView V) : Bool := s.vocabulary.id == t.vocabulary.id

/-- Whether every member of `t` is one of `s`. -/
def containsAll (s t : SetView V) : Bool :=
  if s.sameVocabulary t then t.members.isSubset s.members
  else t.toList.all s.contains

def equalMembers (s t : SetView V) : Bool :=
  if s.sameVocabulary t then s.members == t.members
  else s.size == t.size && s.containsAll t

/-- Equality across kinds. Two frozen sets know their sizes, so these come first. -/
def equal (s t : SetView V) : Bool :=
  match s.set, t.set with
  | .frozen a, .frozen b => if a.size ≠ b.size then false else s.equalMembers t
  | _, _ => s.equalMembers t

instance : BEq (SetView V) := ⟨equal⟩

variable [Rendered V]

def plain (s : SetView V) : String := Text.bracketed (s.toList.map Rendered.plain)

def quoted (s : SetView V) : String := Text.braced (s.toList.map Rendered.quoted)

end SetView

end WorkTracking
