import Mathlib.Data.List.Basic

/-! # Go strings

The part of Go's `strings` package the controllers use, on Lean's `String`, for
one-character separators.  `split` and `join` are `strings.Split` and
`strings.Join`; they are inverse to each other on lists whose elements do not
contain the separator (`join_split`, `split_join`), except that the empty list
joins to the empty string, which splits to a list with one empty element
(`split_join_nil`). -/
namespace Go

variable {sep : Char}

/-- `strings.Split(s, sep)`. -/
def split (sep : Char) (s : String) : List String :=
  (s.toList.splitOn sep).map String.ofList

/-- `strings.Join(l, sep)`. -/
def join (sep : Char) (l : List String) : String :=
  String.ofList ([sep].intercalate (l.map String.toList))

/-- `strings.SplitN(s, sep, 2)`: `s` itself if the separator does not occur, and
otherwise what stands before and after its first occurrence. -/
def splitTwo (sep : Char) (s : String) : List String :=
  match s.toList.span (· != sep) with
  | (_, []) => [s]
  | (before, _ :: after) => [String.ofList before, String.ofList after]

/-- The elements of `l` other than `s`, in order. -/
def removeString (l : List String) (s : String) : List String :=
  l.filter (· ≠ s)

theorem map_ofList_toList (l : List String) : (l.map String.toList).map String.ofList = l := by
  simp [List.map_map, Function.comp_def]

theorem split_ne_nil (s : String) : split sep s ≠ [] := by
  simp [split]

@[simp] theorem join_split (s : String) : join sep (split sep s) = s := by
  have h : ((s.toList.splitOn sep).map String.ofList).map String.toList = s.toList.splitOn sep := by
    simp [List.map_map, Function.comp_def]
  rw [join, split, h, List.intercalate_splitOn, String.ofList_toList]

theorem split_join {l : List String} (hne : l ≠ []) (hsep : ∀ x ∈ l, sep ∉ x.toList) :
    split sep (join sep l) = l := by
  have hsep' : ∀ cs ∈ l.map String.toList, sep ∉ cs := by
    intro cs hcs
    obtain ⟨x, hx, rfl⟩ := List.mem_map.mp hcs
    exact hsep x hx
  rw [split, join, String.toList_ofList, List.splitOn_intercalate sep hsep' (by simpa using hne),
    map_ofList_toList]

@[simp] theorem join_singleton (x : String) : join sep [x] = x := by
  simp [join]

@[simp] theorem split_join_nil : split sep (join sep []) = [""] := by
  simp [split, join]

/-- A string without the separator is one field. -/
theorem split_of_notMem {s : String} (h : sep ∉ s.toList) : split sep s = [s] := by
  have hs : split sep (join sep [s]) = [s] := split_join (by simp) (by simpa using h)
  simpa [join] using hs

/-- The fields of a split contain no separator. -/
theorem notMem_of_mem_split {s x : String} (hx : x ∈ split sep s) : sep ∉ x.toList := by
  obtain ⟨cs, hcs, rfl⟩ := List.mem_map.mp hx
  rw [String.toList_ofList]
  intro hsep
  have key : ∀ l : List Char, ∀ cs ∈ l.splitOn sep, sep ∉ cs := by
    intro l
    induction l with
    | nil => simp
    | cons a l ih =>
      intro cs hcs
      rw [List.splitOn, List.splitOnP_cons_eq_if_modifyHead] at hcs
      split at hcs
      · rcases List.mem_cons.mp hcs with rfl | hcs
        · exact List.not_mem_nil
        · exact ih cs hcs
      · rename_i ha
        cases hs : l.splitOnP (· == sep) with
        | nil => exact absurd hs (List.splitOnP_ne_nil _ _)
        | cons b bs =>
          have ih' : ∀ cs ∈ b :: bs, sep ∉ cs := fun cs h => ih cs (by rw [List.splitOn, hs]; exact h)
          rw [hs, List.modifyHead_cons] at hcs
          rcases List.mem_cons.mp hcs with rfl | hcs
          · intro hmem
            rcases List.mem_cons.mp hmem with rfl | hmem
            · simp at ha
            · exact ih' b List.mem_cons_self hmem
          · exact ih' cs (List.mem_cons_of_mem _ hcs)
  exact key _ _ hcs hsep

/-- Appending `sep` and a field to a string appends the field to its split. -/
theorem split_append {s x : String} (hx : sep ∉ x.toList) :
    split sep (s ++ String.ofList [sep] ++ x) = split sep s ++ [x] := by
  have happ : ∀ l : List String, l ≠ [] →
      join sep l ++ String.ofList [sep] ++ x = join sep (l ++ [x]) := by
    intro l hl
    induction l with
    | nil => exact absurd rfl hl
    | cons a l ih =>
      cases l with
      | nil => apply String.toList_inj.mp; simp [join]
      | cons b l =>
        have := congrArg String.toList (ih (by simp))
        apply String.toList_inj.mp
        simp only [join, String.toList_append, String.toList_ofList, List.map_cons, List.cons_append,
          List.map_append, List.intercalate_cons_cons, List.append_assoc] at this ⊢
        rw [this]
  have h := happ (split sep s) (split_ne_nil s)
  rw [join_split] at h
  rw [h]
  refine split_join (by simp) ?_
  intro y hy
  rcases List.mem_append.mp hy with hy | hy
  · exact notMem_of_mem_split hy
  · rw [List.mem_singleton.mp hy]; exact hx

/-- Two texts joined by a separator that may occur in them: the pairs are the same, or one
first text goes on, after a separator, with what the other second text begins with. -/
theorem append_sep_inj_iff {c : Char} {a b a' b' : String} :
    a ++ String.singleton c ++ b = a' ++ String.singleton c ++ b' ↔
      (a = a' ∧ b = b') ∨
      (∃ x, a = a' ++ String.singleton c ++ x ∧ b' = x ++ String.singleton c ++ b) ∨
      ∃ x, a' = a ++ String.singleton c ++ x ∧ b = x ++ String.singleton c ++ b' := by
  constructor
  · intro h
    have hlist := congrArg String.toList h
    simp only [String.toList_append, String.toList_singleton, List.append_assoc,
      List.singleton_append] at hlist
    rcases List.append_eq_append_iff.mp hlist with ⟨x, ha, hb⟩ | ⟨x, ha, hb⟩
    · cases x with
      | nil =>
        simp only [List.append_nil, List.nil_append, List.cons.injEq, true_and] at ha hb
        exact .inl ⟨(String.toList_inj.mp ha).symm, String.toList_inj.mp hb⟩
      | cons d x =>
        simp only [List.cons_append, List.cons.injEq] at hb
        obtain ⟨rfl, hb⟩ := hb
        refine .inr (.inr ⟨String.ofList x, ?_, ?_⟩)
        · apply String.toList_inj.mp
          simp [ha]
        · apply String.toList_inj.mp
          simp [hb]
    · cases x with
      | nil =>
        simp only [List.append_nil, List.nil_append, List.cons.injEq, true_and] at ha hb
        exact .inl ⟨String.toList_inj.mp ha, (String.toList_inj.mp hb).symm⟩
      | cons d x =>
        simp only [List.cons_append, List.cons.injEq] at hb
        obtain ⟨rfl, hb⟩ := hb
        refine .inr (.inl ⟨String.ofList x, ?_, ?_⟩)
        · apply String.toList_inj.mp
          simp [ha]
        · apply String.toList_inj.mp
          simp [hb]
  · rintro (⟨rfl, rfl⟩ | ⟨x, rfl, rfl⟩ | ⟨x, rfl, rfl⟩)
    · rfl
    · simp only [String.append_assoc]
    · simp only [String.append_assoc]

@[simp] theorem mem_removeString {l : List String} {s x : String} :
    x ∈ removeString l s ↔ x ∈ l ∧ x ≠ s := by
  simp [removeString]

theorem removeString_of_notMem {l : List String} {s : String} (h : s ∉ l) :
    removeString l s = l := by
  refine List.filter_eq_self.mpr ?_
  intro x hx
  exact decide_eq_true (fun he => h (he ▸ hx))

end Go
