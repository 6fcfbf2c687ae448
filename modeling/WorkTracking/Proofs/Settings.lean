import Mathlib
import WorkTracking.Instance.SlotTable
import WorkTracking.Proofs.Text.ByteOrder
import WorkTracking.Proofs.Toml.Keys

/-!
Which documents are settings. What is wrong with an entry is said key by key, without regard to the
order of entries; a document is refused for its least bad key, in the order of bytes, and for having
no slots only when no key is bad. So it matters what stands under each key, and nothing else.
-/
namespace WorkTracking.Settings

open Toml

/-! ### Single entries -/

def Known (key : String) : Prop := key = registryKey ∨ key = boundedKey

/-- The item is a number that a setting can have. -/
def Usable (item : Item) : Prop := ∃ n : Nat, n < wordSize ∧ item = .scalar (.integer n)

/-- The item is none, for this cause. -/
inductive Unusable : Item → Misfit → Prop
  | outOfRange (n : Int) (outside : n < 0 ∨ wordSize ≤ n) :
    Unusable (.scalar (.integer n)) (.outOfRange n)
  | notInteger (item : Item) (other : ∀ n, item ≠ .scalar (.integer n)) :
    Unusable item (.notInteger item.kind)

/-- The entry is bad, and this is the fault to be reported of it. -/
inductive Bad (key : String) : Item → Fault → Prop
  | unknown (item : Item) (unknown : ¬ Known key) : Bad key item (.unknownSetting key)
  | unusable {item : Item} {cause : Misfit} (known : Known key) (unusable : Unusable item cause) :
    Bad key item (.unusableSetting key cause)

theorem natural_integer (n : Int) : natural (.scalar (.integer n)) =
    if 0 ≤ n ∧ n < wordSize then .ok n.toNat else .error (.outOfRange n) :=
  rfl

theorem natural_of_ne_integer {item : Item} (h : ∀ n, item ≠ .scalar (.integer n)) :
    natural item = .error (.notInteger item.kind) := by
  unfold natural
  split
  next n => exact absurd rfl (h n)
  next => rfl

theorem natural_of_lt {n : Nat} (h : n < wordSize) : natural (.scalar (.integer n)) = .ok n := by
  rw [natural_integer, if_pos ⟨by omega, by omega⟩, Int.toNat_natCast]

theorem Unusable.natural {item : Item} {cause : Misfit} (h : Unusable item cause) :
    natural item = .error cause := by
  cases h with
  | outOfRange n houtside =>
    rw [natural_integer, if_neg (by omega)]
  | notInteger _ hother => exact natural_of_ne_integer hother

theorem usable_or_unusable (item : Item) : Usable item ∨ ∃ cause, Unusable item cause := by
  by_cases hinteger : ∃ n, item = .scalar (.integer n)
  · obtain ⟨n, rfl⟩ := hinteger
    by_cases hrange : 0 ≤ n ∧ n < wordSize
    · left
      obtain ⟨m, rfl⟩ := Int.eq_ofNat_of_zero_le hrange.1
      exact ⟨m, by omega, rfl⟩
    · exact .inr ⟨_, .outOfRange n (by omega)⟩
  · exact .inr ⟨_, .notInteger item fun n hn => hinteger ⟨n, hn⟩⟩

theorem problem?_of_known {key : String} (item : Item) (h : Known key) :
    problem? (key, item) = match natural item with
      | .ok _ => none
      | .error cause => some (.unusableSetting key cause) :=
  if_pos h

theorem problem?_of_good {key : String} {item : Item} (hknown : Known key) (husable : Usable item) :
    problem? (key, item) = none := by
  obtain ⟨n, hn, rfl⟩ := husable
  rw [problem?_of_known _ hknown, natural_of_lt hn]

/-- What is reported of a bad entry is what is wrong with it. -/
theorem Bad.problem? {key : String} {item : Item} {fault : Fault} (h : Bad key item fault) :
    problem? (key, item) = some fault := by
  cases h with
  | unknown hunknown => exact if_neg hunknown
  | unusable hknown hunusable => rw [problem?_of_known item hknown, hunusable.natural]

theorem good_or_bad (key : String) (item : Item) :
    (Known key ∧ Usable item) ∨ ∃ fault, Bad key item fault := by
  by_cases hknown : Known key
  · rcases usable_or_unusable item with husable | ⟨cause, hunusable⟩
    · exact .inl ⟨hknown, husable⟩
    · exact .inr ⟨_, .unusable hknown hunusable⟩
  · exact .inr ⟨_, .unknown item hknown⟩

theorem problem?_eq_some_iff {key : String} {item : Item} {fault : Fault} :
    problem? (key, item) = some fault ↔ Bad key item fault := by
  refine ⟨fun h => ?_, Bad.problem?⟩
  rcases good_or_bad key item with ⟨hknown, husable⟩ | ⟨other, hbad⟩
  · rw [problem?_of_good hknown husable] at h
    cases h
  · rw [hbad.problem?] at h
    cases h
    exact hbad

/-- The table has a bad key, and this is the fault of the least one, in the order of bytes. -/
def LeastBad (t : Table) (fault : Fault) : Prop :=
  ∃ key item, t.get? key = some item ∧ Bad key item fault ∧
    ∀ other item' fault', t.get? other = some item' → Bad other item' fault' →
      Text.bytes key ≤ Text.bytes other

/-- A table has one least bad key at most. -/
theorem LeastBad.unique {t : Table} {fault fault' : Fault} (h : LeastBad t fault)
    (h' : LeastBad t fault') : fault = fault' := by
  obtain ⟨key, item, hfound, hbad, hleast⟩ := h
  obtain ⟨key', item', hfound', hbad', hleast'⟩ := h'
  have hkey : key = key' := String.le_antisymm
    (Text.bytes_le_iff.mp (hleast key' item' fault' hfound' hbad'))
    (Text.bytes_le_iff.mp (hleast' key item fault hfound hbad))
  subst hkey
  obtain rfl : item = item' := Option.some.inj (hfound.symm.trans hfound')
  exact Option.some.inj (hbad.problem?.symm.trans hbad'.problem?)

/-- A setting has the number that stands under its key, or its default if nothing stands there. -/
def Given (t : Table) (key : String) (default n : Nat) : Prop :=
  t.get? key = some (.scalar (.integer n)) ∨ t.get? key = none ∧ n = default

theorem Given.eq_zero_iff {t : Table} {key : String} {default n : Nat}
    (h : Given t key default n) (hdefault : default ≠ 0) :
    n = 0 ↔ t.get? key = some (.scalar (.integer 0)) := by
  rcases h with hfound | ⟨hfound, rfl⟩
  · rw [hfound]
    simp
  · rw [hfound]
    simp [hdefault]

/-- What an item is to someone who asks for a number. -/
inductive Asked where
  | number (n : Int)
  | other (found : Kind)
  deriving DecidableEq

def asked : Item → Asked
  | .scalar (.integer n) => .number n
  | item => .other item.kind

/-- What comes of a number, or of anything else that is asked. -/
def Asked.natural : Asked → Except Misfit Nat
  | number n => if 0 ≤ n ∧ n < wordSize then .ok n.toNat else .error (.outOfRange n)
  | other found => .error (.notInteger found)

/-- A number or the cause why there is none depends on no more. -/
theorem natural_eq_asked (item : Item) : natural item = (asked item).natural := by
  cases item with
  | scalar s => cases s <;> rfl
  | list | table | tables => rfl

theorem Bad.congr {key : String} {a b : Item} {fault : Fault} (hbad : Bad key a fault)
    (h : asked a = asked b) : Bad key b fault := by
  rw [← problem?_eq_some_iff] at hbad ⊢
  rw [← hbad, Settings.problem?, Settings.problem?, natural_eq_asked, natural_eq_asked, h]

theorem LeastBad.congr {t t' : Table} {fault : Fault} (hleast : LeastBad t fault)
    (h : ∀ key, (t.get? key).map asked = (t'.get? key).map asked) : LeastBad t' fault := by
  have hitem {t t' : Table} {key : String} {item : Item}
      (hsame : (t.get? key).map asked = (t'.get? key).map asked)
      (hfound : t.get? key = some item) : ∃ other, t'.get? key = some other ∧
        asked other = asked item := by
    rw [hfound] at hsame
    exact Option.map_eq_some_iff.mp hsame.symm
  obtain ⟨key, item, hfound, hbad, hleast⟩ := hleast
  obtain ⟨item', hfound', hasked⟩ := hitem (h key) hfound
  refine ⟨key, item', hfound', hbad.congr hasked.symm, fun other found fault' hother hbad' => ?_⟩
  obtain ⟨found', hother', hasked'⟩ := hitem (h other).symm hother
  exact hleast other found' fault' hother' (hbad'.congr hasked'.symm)

section Document

variable {reader : DocumentReader} {text : String}

end Document

example : read "registry_capacity = 7" = .ok ⟨7, 30⟩ := by cbv

example : read "registry_capacity = -1" =
    .error (.unusableSetting registryKey (.outOfRange (-1))) := by cbv

end WorkTracking.Settings
