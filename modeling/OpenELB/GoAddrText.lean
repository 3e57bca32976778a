import OpenELB.GoCidr
import OpenELB.GoText
import Mathlib.Data.List.TakeDrop
import Mathlib.Data.List.TakeWhile

/-! # The letters of an address

What `net.ParseIP` and `net.ParseCIDR` accept is written in hexadecimal digits, dots and
colons, and a slash before the digits of a prefix length (`mem_of_parseAddr`,
`mem_of_dtoi`).  They do not tell capitals from small letters (`parseAddr_map_toLower`,
`parsePrefix_map_toLower`). -/
namespace Go

/-! ## Small letters -/

/-- A property of every letter and the small letter for it. -/
theorem toLower_rule {P : Char → Char → Prop}
    (hsame : ∀ c : Char, ¬ (c.val ≥ 'A'.val ∧ c.val ≤ 'Z'.val) → P c c)
    (hupper : ∀ n < 26, P (Char.ofNat (65 + n)) (Char.ofNat (65 + n)).toLower) (c : Char) :
    P c c.toLower := by
  by_cases h : c.val ≥ 'A'.val ∧ c.val ≤ 'Z'.val
  · have hlow : 65 ≤ c.toNat := UInt32.le_iff_toNat_le.mp h.1
    have hhigh : c.toNat ≤ 90 := UInt32.le_iff_toNat_le.mp h.2
    have hc : Char.ofNat (65 + (c.toNat - 65)) = c := by
      rw [Nat.add_sub_cancel' hlow, Char.ofNat_toNat]
    have hP := hupper (c.toNat - 65) (by omega)
    rwa [hc] at hP
  · have hc : c.toLower = c := dif_neg h
    rw [hc]
    exact hsame c h

theorem hexVal_toLower (c : Char) : hexVal c.toLower = hexVal c :=
  toLower_rule (P := fun c d => hexVal d = hexVal c) (fun _ _ => rfl) (by decide) c

theorem decVal_toLower (c : Char) : decVal c.toLower = decVal c :=
  toLower_rule (P := fun c d => decVal d = decVal c) (fun _ _ => rfl) (by decide) c

/-- The separators are not letters. -/
def IsSep (sep : Char) : Prop := ∀ c : Char, c.toLower = sep ↔ c = sep

theorem isSep_of {sep : Char}
    (h : ∀ n < 26, (Char.ofNat (65 + n)).toLower = sep ↔ Char.ofNat (65 + n) = sep) : IsSep sep :=
  fun c => toLower_rule (P := fun c d => d = sep ↔ c = sep) (fun _ _ => Iff.rfl) h c

theorem isSep_dot : IsSep '.' := isSep_of (by decide)
theorem isSep_colon : IsSep ':' := isSep_of (by decide)
theorem isSep_percent : IsSep '%' := isSep_of (by decide)
theorem isSep_slash : IsSep '/' := isSep_of (by decide)
theorem isSep_dash : IsSep '-' := isSep_of (by decide)

theorem IsSep.mem_map {sep : Char} (h : IsSep sep) {cs : List Char} :
    sep ∈ cs.map Char.toLower ↔ sep ∈ cs := by
  rw [List.mem_map]
  constructor
  · rintro ⟨c, hc, he⟩
    rwa [← (h c).mp he]
  · intro hc
    exact ⟨sep, hc, (h sep).mpr rfl⟩

theorem IsSep.splitOn {sep : Char} (h : IsSep sep) (cs : List Char) :
    (cs.map Char.toLower).splitOn sep = (cs.splitOn sep).map (List.map Char.toLower) := by
  induction cs with
  | nil => rfl
  | cons c cs ih =>
    rw [List.splitOn] at ih ⊢
    rw [List.splitOn, List.map_cons, List.splitOnP_cons_eq_if_modifyHead,
      List.splitOnP_cons_eq_if_modifyHead, ih]
    by_cases hc : c = sep
    · have hc' := (h c).mpr hc
      simp [hc, (h sep).mpr rfl, List.splitOn]
    · have hc' : c.toLower ≠ sep := fun he => hc ((h c).mp he)
      rw [if_neg (by simpa using hc'), if_neg (by simpa using hc)]
      rw [List.splitOn]
      cases cs.splitOnP (· == sep) <;> rfl

theorem IsSep.span {sep : Char} (h : IsSep sep) (cs : List Char) :
    (cs.map Char.toLower).span (· != sep) =
      ((cs.span (· != sep)).1.map Char.toLower, (cs.span (· != sep)).2.map Char.toLower) := by
  rw [List.span_eq_takeWhile_dropWhile, List.span_eq_takeWhile_dropWhile]
  have hp : (fun c : Char => c != sep) ∘ Char.toLower = fun c => c != sep := by
    funext c
    rw [Function.comp_apply, Bool.eq_iff_iff, bne_iff_ne, bne_iff_ne, ne_eq, ne_eq, h c]
  rw [List.takeWhile_map, List.dropWhile_map, hp]

/-! ## Reading does not depend on the case -/

theorem mapM_map {α β γ : Type} (f : α → β) (g : β → Option γ) (l : List α) :
    (l.map f).mapM g = l.mapM fun a => g (f a) := by
  induction l with
  | nil => rfl
  | cons a l ih => rw [List.map_cons, List.mapM_cons, List.mapM_cons, ih]

theorem parseOctet_map_toLower (cs : List Char) :
    parseOctet (cs.map Char.toLower) = parseOctet cs := by
  rw [parseOctet, parseOctet, mapM_map, funext decVal_toLower]

theorem parseIPv4_map_toLower (cs : List Char) :
    parseIPv4 (cs.map Char.toLower) = parseIPv4 cs := by
  rw [parseIPv4, parseIPv4, isSep_dot.splitOn, mapM_map, funext parseOctet_map_toLower]

theorem parseGroup_map_toLower (cs : List Char) :
    parseGroup (cs.map Char.toLower) = parseGroup cs := by
  rw [parseGroup, parseGroup, mapM_map, funext hexVal_toLower]

theorem parseGroups_map_toLower (cs : List Char) :
    parseGroups (cs.map Char.toLower) = parseGroups cs := by
  rw [parseGroups, parseGroups, isSep_colon.splitOn, mapM_map, funext parseGroup_map_toLower]
  simp only [List.map_eq_nil_iff]

theorem parseTail_map_toLower (cs : List Char) :
    parseTail (cs.map Char.toLower) = parseTail cs := by
  rw [parseTail, parseTail, isSep_colon.splitOn, List.getLast?_map, ← List.map_dropLast, mapM_map,
    funext parseGroup_map_toLower, parseGroups_map_toLower]
  cases (cs.splitOn ':').getLast? with
  | none => rfl
  | some last =>
    dsimp only [Option.map_some]
    simp only [isSep_dot.mem_map, parseIPv4_map_toLower]

theorem cutEllipsis_map_toLower (cs : List Char) :
    cutEllipsis (cs.map Char.toLower) =
      (cutEllipsis cs).map fun p => (p.1.map Char.toLower, p.2.map Char.toLower) := by
  induction cs with
  | nil => rfl
  | cons a cs ih =>
    cases cs with
    | nil => rfl
    | cons b cs =>
      rw [List.map_cons] at ih
      rw [List.map_cons, List.map_cons, cutEllipsis, cutEllipsis]
      simp only [isSep_colon a, isSep_colon b]
      split
      · rfl
      · rw [ih, Option.map_map, Option.map_map]
        rfl

theorem parseIPv6_map_toLower (cs : List Char) :
    parseIPv6 (cs.map Char.toLower) = parseIPv6 cs := by
  rw [parseIPv6, parseIPv6, cutEllipsis_map_toLower]
  cases cutEllipsis cs with
  | none => rw [Option.map_none, parseTail_map_toLower]
  | some p =>
    dsimp only [Option.map_some]
    rw [parseGroups_map_toLower, parseTail_map_toLower]

theorem parseAddr_map_toLower (cs : List Char) :
    parseAddr (cs.map Char.toLower) = parseAddr cs := by
  have hfind : (cs.map Char.toLower).find? (fun c => c = '.' ∨ c = ':' ∨ c = '%') =
      cs.find? fun c => c = '.' ∨ c = ':' ∨ c = '%' := by
    rw [List.find?_map, Function.comp_def]
    simp only [isSep_dot _, isSep_colon _, isSep_percent _]
    -- what is found is a separator, and no letter
    cases hc : cs.find? fun c => c = '.' ∨ c = ':' ∨ c = '%' with
    | none => rfl
    | some c =>
      have hsep := List.find?_some hc
      rw [decide_eq_true_iff] at hsep
      rcases hsep with rfl | rfl | rfl <;> rfl
  rw [parseAddr, parseAddr, hfind, parseIPv4_map_toLower, parseIPv6_map_toLower]

theorem dtoi_map_toLower (cs : List Char) : dtoi (cs.map Char.toLower) = dtoi cs := by
  rw [dtoi, dtoi, mapM_map, funext decVal_toLower]

/-- `strings.ToLower`, on the letters of addresses. -/
theorem parseIP_toLower {s t : String} (h : t.toList = s.toList.map Char.toLower) :
    parseIP t = parseIP s := by
  rw [parseIP, parseIP, h, parseAddr_map_toLower]

theorem parsePrefix_toLower {s t : String} (h : t.toList = s.toList.map Char.toLower) :
    parsePrefix t = parsePrefix s := by
  rw [parsePrefix, parsePrefix, h, isSep_slash.span]
  obtain ⟨addr, rest⟩ := s.toList.span (· != '/')
  cases rest with
  | nil => rfl
  | cons c mask =>
    rw [List.map_cons]
    dsimp only
    rw [parseAddr_map_toLower, dtoi_map_toLower]

/-! ## Cutting at a separator -/

theorem ne_of_notMem {sep : Char} {cs : List Char} (h : sep ∉ cs) :
    ∀ c ∈ cs, (c != sep) = true := by
  intro c hc
  rw [bne_iff_ne]
  rintro rfl
  exact h hc

theorem eq_of_dropWhile {sep c : Char} {cs rest : List Char}
    (h : cs.dropWhile (· != sep) = c :: rest) : cs = cs.takeWhile (· != sep) ++ sep :: rest := by
  have happ := List.takeWhile_append_dropWhile (p := (· != sep)) (l := cs)
  have hhead := List.head_dropWhile_not (· != sep) (l := cs) (by rw [h]; simp)
  simp only [h, List.head_cons] at hhead
  rw [h, show c = sep by simpa using hhead] at happ
  exact happ.symm

theorem splitTwo_of_notMem {sep : Char} {s : String} (h : sep ∉ s.toList) : splitTwo sep s = [s] := by
  rw [splitTwo, List.span_eq_takeWhile_dropWhile, List.dropWhile_eq_nil_iff.mpr (ne_of_notMem h)]

theorem splitTwo_pair {sep : Char} {s a b : String} (h : splitTwo sep s = [a, b]) :
    s.toList = a.toList ++ sep :: b.toList := by
  rw [splitTwo, List.span_eq_takeWhile_dropWhile] at h
  cases hdrop : s.toList.dropWhile (· != sep) with
  | nil =>
    rw [hdrop] at h
    cases h
  | cons c rest =>
    rw [hdrop] at h
    cases h
    rw [String.toList_ofList, String.toList_ofList]
    exact eq_of_dropWhile hdrop

theorem splitTwo_append {sep : Char} {a b : String} (h : sep ∉ a.toList) :
    splitTwo sep (a ++ String.ofList [sep] ++ b) = [a, b] := by
  have hlist : (a ++ String.ofList [sep] ++ b).toList = a.toList ++ sep :: b.toList := by simp
  have hstop : (sep :: b.toList).takeWhile (· != sep) = [] := by simp
  rw [splitTwo, hlist, List.span_eq_takeWhile_dropWhile,
    List.takeWhile_append_of_pos (ne_of_notMem h), List.dropWhile_append_of_pos (ne_of_notMem h),
    hstop, List.append_nil]
  simp

/-! ## Which letters there are -/

/-- A letter of an address. -/
def IsAddrLetter (c : Char) : Prop := (hexVal c).isSome ∨ c = '.' ∨ c = ':'

theorem isSome_of_mapM {α β : Type} {f : α → Option β} {l : List α} {bs : List β}
    (h : l.mapM f = some bs) : ∀ a ∈ l, (f a).isSome := by
  induction l generalizing bs with
  | nil => exact fun _ ha => absurd ha List.not_mem_nil
  | cons a l ih =>
    rw [List.mapM_cons] at h
    obtain ⟨b, hb, h⟩ := Option.bind_eq_some_iff.mp h
    obtain ⟨bs', hbs, -⟩ := Option.bind_eq_some_iff.mp h
    rw [List.forall_mem_cons]
    exact ⟨by rw [hb]; rfl, ih hbs⟩

/-- A letter is the separator, or in one of the pieces. -/
theorem mem_splitOn {sep c : Char} {cs : List Char} (hc : c ∈ cs) :
    c = sep ∨ ∃ piece ∈ cs.splitOn sep, c ∈ piece := by
  induction cs with
  | nil => exact absurd hc List.not_mem_nil
  | cons a cs ih =>
    rw [List.splitOn] at ih ⊢
    rw [List.splitOnP_cons_eq_if_modifyHead]
    by_cases ha : a = sep
    · rw [if_pos (by simpa using ha)]
      rcases List.mem_cons.mp hc with rfl | hc
      · exact .inl ha
      · obtain h | ⟨piece, hp, hcp⟩ := ih hc
        · exact .inl h
        · exact .inr ⟨piece, List.mem_cons_of_mem _ hp, hcp⟩
    · rw [if_neg (by simpa using ha)]
      obtain ⟨first, rest, hsplit⟩ := List.exists_cons_of_ne_nil (List.splitOnP_ne_nil (· == sep) cs)
      rw [hsplit] at ih ⊢
      rw [List.modifyHead_cons]
      rcases List.mem_cons.mp hc with rfl | hc
      · exact .inr ⟨_, List.mem_cons_self, List.mem_cons_self⟩
      · obtain h | ⟨piece, hp, hcp⟩ := ih hc
        · exact .inl h
        · rcases List.mem_cons.mp hp with rfl | hp
          · exact .inr ⟨_, List.mem_cons_self, List.mem_cons_of_mem _ hcp⟩
          · exact .inr ⟨piece, List.mem_cons_of_mem _ hp, hcp⟩

theorem hexVal_of_decVal {c : Char} (h : (decVal c).isSome) : (hexVal c).isSome := by
  rw [decVal] at h
  rw [hexVal]
  split at h
  · rename_i hc
    rw [if_pos hc]
    rfl
  · cases h

/-- The letters of a prefix length are digits. -/
theorem mem_of_dtoi {cs : List Char} {n : Nat} (h : dtoi cs = some n) :
    cs ≠ [] ∧ ∀ c ∈ cs, (decVal c).isSome := by
  rw [dtoi] at h
  cases hds : cs.mapM decVal with
  | none =>
    rw [hds] at h
    cases h
  | some ds =>
    refine ⟨?_, isSome_of_mapM hds⟩
    rintro rfl
    cases hds
    cases h

theorem mem_of_parseIPv4 {cs : List Char} {p : IP} (h : parseIPv4 cs = some p) :
    ∀ c ∈ cs, (decVal c).isSome ∨ c = '.' := by
  intro c hc
  rw [parseIPv4] at h
  cases hos : (cs.splitOn '.').mapM parseOctet with
  | none =>
    rw [hos] at h
    cases h
  | some os =>
    obtain hdot | ⟨piece, hp, hcp⟩ : c = '.' ∨ ∃ piece ∈ cs.splitOn '.', c ∈ piece := mem_splitOn hc
    · exact .inr hdot
    · have hpiece := isSome_of_mapM hos piece hp
      rw [parseOctet] at hpiece
      cases hds : piece.mapM decVal with
      | none =>
        rw [hds] at hpiece
        cases hpiece
      | some ds => exact .inl (isSome_of_mapM hds c hcp)

theorem mem_of_parseGroup {cs : List Char} (h : (parseGroup cs).isSome) :
    ∀ c ∈ cs, (hexVal c).isSome := by
  rw [parseGroup] at h
  cases hds : cs.mapM hexVal with
  | none =>
    rw [hds] at h
    cases h
  | some ds => exact isSome_of_mapM hds

theorem mem_of_parseGroups {cs : List Char} {gs : List Nat} (h : parseGroups cs = some gs) :
    ∀ c ∈ cs, IsAddrLetter c := by
  intro c hc
  rw [parseGroups] at h
  split at h
  · rename_i he
    rw [he] at hc
    exact absurd hc List.not_mem_nil
  · obtain hcolon | ⟨piece, hp, hcp⟩ : c = ':' ∨ ∃ piece ∈ cs.splitOn ':', c ∈ piece := mem_splitOn hc
    · exact .inr (.inr hcolon)
    · exact .inl (mem_of_parseGroup (isSome_of_mapM h piece hp) c hcp)

theorem mem_of_parseTail {cs : List Char} {gs : List Nat} (h : parseTail cs = some gs) :
    ∀ c ∈ cs, IsAddrLetter c := by
  rw [parseTail] at h
  cases hlast : (cs.splitOn ':').getLast? with
  | none =>
    rw [hlast] at h
    cases h
  | some last =>
    rw [hlast] at h
    dsimp only at h
    split at h
    · cases hhs : (cs.splitOn ':').dropLast.mapM parseGroup with
      | none =>
        rw [hhs] at h
        cases h
      | some hs =>
        cases hq : parseIPv4 last with
        | none =>
          rw [hhs, hq] at h
          cases h
        | some q =>
          intro c hc
          obtain hcolon | ⟨piece, hp, hcp⟩ : c = ':' ∨ ∃ piece ∈ cs.splitOn ':', c ∈ piece :=
            mem_splitOn hc
          · exact .inr (.inr hcolon)
          · -- the piece is the dotted quad at the end, or a group before it
            rw [← List.dropLast_append_getLast? last hlast] at hp
            rcases List.mem_append.mp hp with hp | hp
            · exact .inl (mem_of_parseGroup (isSome_of_mapM hhs piece hp) c hcp)
            · rw [List.mem_singleton.mp hp] at hcp
              rcases mem_of_parseIPv4 hq c hcp with hd | hd
              · exact .inl (hexVal_of_decVal hd)
              · exact .inr (.inl hd)
    · exact mem_of_parseGroups h

theorem cutEllipsis_eq {cs l r : List Char} (h : cutEllipsis cs = some (l, r)) :
    cs = l ++ ':' :: ':' :: r := by
  induction cs generalizing l with
  | nil => cases h
  | cons a cs ih =>
    cases cs with
    | nil => cases h
    | cons b cs =>
      rw [cutEllipsis] at h
      split at h
      · rename_i hab
        cases h
        rw [hab.1, hab.2, List.nil_append]
      · obtain ⟨⟨l', r'⟩, hp, he⟩ := Option.map_eq_some_iff.mp h
        cases he
        rw [ih hp, List.cons_append]

theorem mem_of_parseIPv6 {cs : List Char} {ip : IP} (h : parseIPv6 cs = some ip) :
    ∀ c ∈ cs, IsAddrLetter c := by
  rw [parseIPv6] at h
  cases hcut : cutEllipsis cs with
  | none =>
    rw [hcut] at h
    cases htail : parseTail cs with
    | none =>
      rw [htail] at h
      cases h
    | some gs => exact mem_of_parseTail htail
  | some p =>
    obtain ⟨l, r⟩ := p
    rw [hcut] at h
    dsimp only at h
    cases hls : parseGroups l with
    | none =>
      rw [hls] at h
      cases h
    | some ls =>
      cases hrs : parseTail r with
      | none =>
        rw [hls, hrs] at h
        cases h
      | some rs =>
        intro c hc
        rw [cutEllipsis_eq hcut, List.mem_append, List.mem_cons, List.mem_cons] at hc
        rcases hc with hc | hc | hc | hc
        · exact mem_of_parseGroups hls c hc
        · exact .inr (.inr hc)
        · exact .inr (.inr hc)
        · exact mem_of_parseTail hrs c hc

/-- **The letters of an address** are hexadecimal digits, dots and colons. -/
theorem mem_of_parseAddr {cs : List Char} {form : AddrForm} {ip : IP}
    (h : parseAddr cs = some (form, ip)) : cs ≠ [] ∧ ∀ c ∈ cs, IsAddrLetter c := by
  refine ⟨?_, ?_⟩
  · rintro rfl
    cases h
  · rw [parseAddr] at h
    split at h
    · obtain ⟨p, hp, -⟩ := Option.map_eq_some_iff.mp h
      intro c hc
      exact (mem_of_parseIPv4 hp c hc).imp hexVal_of_decVal .inl
    · obtain ⟨p, hp, -⟩ := Option.map_eq_some_iff.mp h
      exact mem_of_parseIPv6 hp
    · cases h

/-- The letters of a block. -/
theorem parsePrefix_letters {s : String} {form : AddrForm} {ip : IP} {n : Nat}
    (h : parsePrefix s = some (form, ip, n)) :
    ∃ addr mask, s.toList = addr ++ '/' :: mask ∧ addr ≠ [] ∧ (∀ c ∈ addr, IsAddrLetter c) ∧
      mask ≠ [] ∧ ∀ c ∈ mask, (decVal c).isSome := by
  rw [parsePrefix, List.span_eq_takeWhile_dropWhile] at h
  cases hdrop : s.toList.dropWhile (· != '/') with
  | nil =>
    rw [hdrop] at h
    cases h
  | cons c mask =>
    have happ := eq_of_dropWhile hdrop
    rw [hdrop] at h
    dsimp only at h
    cases haddr : parseAddr (s.toList.takeWhile (· != '/')) with
    | none =>
      rw [haddr] at h
      cases h
    | some p =>
      cases hmask : dtoi mask with
      | none =>
        rw [haddr, hmask] at h
        cases h
      | some m =>
        obtain ⟨hne, hletters⟩ := mem_of_parseAddr haddr
        obtain ⟨hmne, hdigits⟩ := mem_of_dtoi hmask
        exact ⟨_, mask, happ, hne, hletters, hmne, hdigits⟩

end Go
