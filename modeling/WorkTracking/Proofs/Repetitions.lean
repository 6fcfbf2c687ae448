import Mathlib.Data.List.Nodup

/-!
Lists in which the elements may come more than once, and what is left when all but the first of each
are taken out. Elements may be the same without being one and the same.
-/
namespace WorkTracking

/-- Another element at the end shows only if it has not come before. -/
theorem eraseDups_concat {α : Type} [BEq α] [EquivBEq α] (l : List α) (a : α) :
    (l ++ [a]).eraseDups = if l.any (· == a) then l.eraseDups else l.eraseDups ++ [a] := by
  match l with
  | [] => rfl
  | b :: l =>
    have hshorter := List.length_filter_le (fun c => !c == b) l
    have ih := eraseDups_concat (l.filter fun c => !c == b) a
    rw [List.cons_append, List.eraseDups_cons, List.eraseDups_cons, List.filter_append,
      List.any_cons]
    cases hab : a == b with
    | true => simp [hab, BEq.symm hab]
    | false =>
      have hba : (b == a) = false := by rw [BEq.comm, hab]
      have hany : (l.filter fun c => !c == b).any (· == a) = l.any (· == a) := by
        rw [List.any_filter]
        refine congrArg l.any (funext fun c => ?_)
        cases hca : c == a with
        | true => simp [BEq.congr_left hca, hab]
        | false => simp
      rw [hany] at ih
      simp only [hab, hba, Bool.not_false, List.filter_cons_of_pos, List.filter_nil, ih,
        Bool.false_or]
      split <;> rfl
termination_by l.length

theorem eraseDups_of_nodup {α : Type} [DecidableEq α] {l : List α} (h : l.Nodup) :
    l.eraseDups = l := by
  induction l with
  | nil => rfl
  | cons a l ih =>
    obtain ⟨ha, hl⟩ := List.nodup_cons.mp h
    have hfilter : (l.filter fun b => !b == a) = l := by
      rw [List.filter_eq_self]
      intro b hb
      have : b ≠ a := fun hba => ha (hba ▸ hb)
      simpa using this
    rw [List.eraseDups_cons, hfilter, ih hl]

end WorkTracking
