import Helios.Proofs.Indexing

/-!
# Searching — finding, splitting and replacing agree

A text occurs at a place of another when it is what follows there (`OccursAt`). Finding gives the least such place
(`find?_eq_some_iff`), and splitting and replacing go from one found place to the next, in loops of their own. A text
falls apart at a found place into what stands before, the text that was looked for and the rest (`eq_of_occursAt`). So
the parts with the separator between them are the text again (`intercalate_splitParts`), and with another text between
them they are what replacing makes (`replaceParts_eq`). No part holds the separator: it would have been found there
(`not_occursAt_of_mem_splitParts`).
-/

namespace Helios

namespace Text

variable {needle sep cs : List Char} {i j : Nat}

/-! ## Occurrences -/

/-- `needle` stands in `cs` at the place `i`. -/
def OccursAt (needle cs : List Char) (i : Nat) : Prop := needle <+: cs.drop i

theorem occursAt_zero : OccursAt needle cs 0 ↔ needle.isPrefixOf cs = true := by
  unfold OccursAt
  rw [List.drop_zero, List.isPrefixOf_iff_prefix]

theorem occursAt_succ (c : Char) : OccursAt needle (c :: cs) (i + 1) ↔ OccursAt needle cs i := Iff.rfl

theorem not_occursAt_nil (hne : needle ≠ []) (i : Nat) : ¬ OccursAt needle [] i := by
  unfold OccursAt
  rwa [List.drop_nil, List.prefix_nil]

theorem OccursAt.take_eq (h : OccursAt needle cs i) : (cs.drop i).take needle.length = needle :=
  (List.prefix_iff_eq_take.mp h).symm

/-- A nonempty text ends where the other does or before. -/
theorem OccursAt.le (h : OccursAt needle cs i) (hne : needle ≠ []) : i + needle.length ≤ cs.length := by
  have hle := h.length_le
  rw [List.length_drop] at hle
  have := List.length_pos_iff.mpr hne
  omega

/-- **A text falls apart where another occurs in it.** -/
theorem eq_of_occursAt (h : OccursAt needle cs i) : cs.take i ++ needle ++ cs.drop (i + needle.length) = cs := by
  have hdrop : needle ++ (cs.drop i).drop needle.length = cs.drop i := by
    conv_rhs => rw [← List.take_append_drop needle.length (cs.drop i), h.take_eq]
  rw [List.append_assoc, ← List.drop_drop, hdrop, List.take_append_drop]

/-! ## Finding -/

theorem findFrom_eq (needle : List Char) (i : Nat) (cs : List Char) :
    findFrom needle i cs = (find? needle cs).map (· + i) := by
  induction cs generalizing i with
  | nil =>
    unfold find? findFrom
    split
    · exact congrArg some i.zero_add.symm
    · rfl
  | cons c cs ih =>
    unfold find? findFrom
    split
    · exact congrArg some i.zero_add.symm
    · rw [ih, ih, Option.map_map]
      refine Option.map_congr fun j _ => ?_
      show j + (i + 1) = j + 1 + i
      omega

theorem find?_cons (needle : List Char) (c : Char) (cs : List Char) : find? needle (c :: cs) =
    if needle.isPrefixOf (c :: cs) then some 0 else (find? needle cs).map (· + 1) := by
  rw [← findFrom_eq]
  rfl

/-- **Finding gives the least place of a nonempty text.** -/
theorem find?_eq_some_iff (hne : needle ≠ []) :
    find? needle cs = some i ↔ OccursAt needle cs i ∧ ∀ j < i, ¬ OccursAt needle cs j := by
  induction cs generalizing i with
  | nil =>
    have hnone : find? needle [] = none := if_neg (by simpa using hne)
    rw [hnone]
    exact iff_of_false nofun fun h => not_occursAt_nil hne i h.1
  | cons c cs ih =>
    rw [find?_cons]
    split
    · rename_i hhere
      rw [← occursAt_zero] at hhere
      rw [Option.some_inj]
      constructor
      · rintro rfl
        exact ⟨hhere, fun j hj => absurd hj j.not_lt_zero⟩
      · rintro ⟨-, hleast⟩
        exact (Nat.eq_zero_of_not_pos fun hpos => hleast 0 hpos hhere).symm
    · rename_i hhere
      rw [← occursAt_zero] at hhere
      cases i with
      | zero => simp [hhere]
      | succ i =>
        have hshift : (find? needle cs).map (· + 1) = some (i + 1) ↔ find? needle cs = some i := by simp
        have hleast : (∀ j < i + 1, ¬ OccursAt needle (c :: cs) j) ↔ ∀ j < i, ¬ OccursAt needle cs j := by
          rw [Nat.forall_lt_succ_left]
          exact and_iff_right hhere
        rw [hshift, ih, occursAt_succ, hleast]

theorem find?_eq_none_iff (hne : needle ≠ []) : find? needle cs = none ↔ ∀ i, ¬ OccursAt needle cs i := by
  constructor
  · intro hnone i hi
    -- were there a place, there would be a least one, and it would have been found
    classical
    have hex : ∃ i, OccursAt needle cs i := ⟨i, hi⟩
    have hfind := (find?_eq_some_iff hne).mpr ⟨Nat.find_spec hex, fun j hj => Nat.find_min hex hj⟩
    rw [hnone] at hfind
    nomatch hfind
  · intro hnone
    cases hfind : find? needle cs with
    | none => rfl
    | some i => exact absurd ((find?_eq_some_iff hne).mp hfind).1 (hnone i)

/-- A text contains what can be found in it. -/
theorem contains_eq (needle cs : List Char) : contains needle cs = (find? needle cs).isSome := by
  induction cs with
  | nil =>
    unfold contains find? findFrom
    cases needle.isEmpty <;> rfl
  | cons c cs ih =>
    rw [find?_cons, contains, ih]
    cases needle.isPrefixOf (c :: cs) with
    | true => rfl
    | false => exact Option.isSome_map.symm

/-! ## Splitting and replacing -/

theorem splitParts_ne_nil (sep : List Char) (fuel : Nat) (cs : List Char) : splitParts sep fuel cs ≠ [] := by
  cases fuel with
  | zero => nofun
  | succ fuel =>
    unfold splitParts
    split <;> nofun

/-- **The parts with the separator between them are the text.** -/
theorem intercalate_splitParts (hne : sep ≠ []) (fuel : Nat) (cs : List Char) :
    List.intercalate sep (splitParts sep fuel cs) = cs := by
  induction fuel generalizing cs with
  | zero => exact List.intercalate_singleton
  | succ fuel ih =>
    unfold splitParts
    split
    · exact List.intercalate_singleton
    · rename_i i hfind
      rw [List.intercalate_cons_of_ne_nil (splitParts_ne_nil _ _ _), ih]
      exact eq_of_occursAt ((find?_eq_some_iff hne).mp hfind).1

/-- **The parts with another text between them are what replacing makes.** -/
theorem replaceParts_eq (old new : List Char) (fuel : Nat) (cs : List Char) :
    replaceParts old new fuel cs = List.intercalate new (splitParts old fuel cs) := by
  induction fuel generalizing cs with
  | zero => exact List.intercalate_singleton.symm
  | succ fuel ih =>
    unfold replaceParts splitParts
    split
    · exact List.intercalate_singleton.symm
    · rw [List.intercalate_cons_of_ne_nil (splitParts_ne_nil _ _ _), ih]

/-- **No part holds the separator**, if there is fuel for all parts. -/
theorem not_occursAt_of_mem_splitParts (hne : sep ≠ []) {fuel : Nat} (hfuel : cs.length < fuel) {part : List Char}
    (hpart : part ∈ splitParts sep fuel cs) (j : Nat) : ¬ OccursAt sep part j := by
  induction fuel generalizing cs with
  | zero => exact absurd hfuel (Nat.not_lt_zero _)
  | succ fuel ih =>
    unfold splitParts at hpart
    split at hpart
    · rename_i hnone
      obtain rfl := List.mem_singleton.mp hpart
      exact (find?_eq_none_iff hne).mp hnone j
    · rename_i i hfind
      obtain ⟨hoccurs, hleast⟩ := (find?_eq_some_iff hne).mp hfind
      have hle := hoccurs.le hne
      have hpos := List.length_pos_iff.mpr hne
      rcases List.mem_cons.mp hpart with rfl | hpart
      · -- within the first part it would stand before the first place
        intro h
        have hj := h.le hne
        rw [List.length_take] at hj
        refine hleast j (by omega) (h.trans ?_)
        rw [List.drop_take]
        exact List.take_prefix ..
      · refine ih ?_ hpart
        rw [List.length_drop]
        omega

theorem split_eq_none (h : find? sep cs = none) : split sep cs = [cs] := by
  unfold split splitParts
  rw [h]

theorem split_eq_some (h : find? sep cs = some i) :
    split sep cs = cs.take i :: splitParts sep cs.length (cs.drop (i + sep.length)) := by
  unfold split
  rw [splitParts, h]

/-- There are at least two parts when there is a place. -/
theorem two_le_length_split : 2 ≤ (split sep cs).length ↔ (find? sep cs).isSome = true := by
  cases h : find? sep cs with
  | none =>
    rw [split_eq_none h]
    exact iff_of_false (by simp) nofun
  | some i =>
    rw [split_eq_some h, List.length_cons]
    have := List.length_pos_iff.mpr (splitParts_ne_nil sep cs.length (cs.drop (i + sep.length)))
    exact iff_of_true (by omega) rfl

end Text

namespace Builtin

open Text (OccursAt)
open Value (ofChars)

/-! ## What the built-in functions answer -/

theorem toList_ne_nil {t : String} (ht : t ≠ "") : t.toList ≠ [] := by
  rwa [Ne, String.toList_eq_nil_iff]

theorem isEmpty_eq_false {t : String} (ht : t ≠ "") : t.isEmpty = false := by
  rwa [String.isEmpty_eq_false_iff]

theorem split_str {t : String} (ht : t ≠ "") (s : String) :
    split [.str s, .str t] = .ok (.list ((Text.split t.toList s.toList).map ofChars)) := by
  show (if t.isEmpty then _ else _) = _
  rw [isEmpty_eq_false ht]
  rfl

theorem split_empty (s : String) : split [.str s, .str ""] = .ok (.list (s.toList.map fun c => ofChars [c])) := rfl

theorem intercalate_ofList (t : String) (parts : List (List Char)) :
    String.intercalate t (parts.map String.ofList) = String.ofList (List.intercalate t.toList parts) := by
  rw [← String.toList_inj, String.toList_intercalate, String.toList_ofList, List.map_map]
  congr 1
  refine (List.map_congr_left fun cs _ => ?_).trans (List.map_id parts)
  exact String.toList_ofList

theorem join_ofChars (parts : List (List Char)) (t : String) :
    join [.list (parts.map ofChars), .str t] = .ok (ofChars (List.intercalate t.toList parts)) := by
  have hdisplay : (parts.map ofChars).map Value.display = parts.map String.ofList := by
    rw [List.map_map]
    rfl
  show Except.ok (Value.str (String.intercalate t ((parts.map ofChars).map Value.display))) = _
  rw [hdisplay, intercalate_ofList]
  rfl

theorem replace_str {t : String} (ht : t ≠ "") (s u : String) :
    replace [.str s, .str t, .str u] = .ok (ofChars (Text.replace t.toList u.toList s.toList)) := by
  show (if t.isEmpty then _ else _) = _
  rw [isEmpty_eq_false ht]
  rfl

theorem contains_str (s t : String) :
    contains [.str s, .str t] = .ok (.bool (Text.contains t.toList s.toList)) := rfl

theorem find_str (s t : String) : find [.str s, .str t] = .ok (placeOrNone (Text.find? t.toList s.toList)) := rfl

theorem len_str (s : String) : len [.str s] = .ok (Value.ofNat s.length) := rfl

/-- A length or a place within the range of integers. -/
theorem toInt_clampInt {n : Nat} (hn : n < 2 ^ 63) : (Decimal.clampInt n).toInt = n := by
  unfold Decimal.clampInt Decimal.minInt Decimal.maxInt
  rw [if_neg (by omega), if_neg (by omega)]
  exact Int64.toInt_ofInt_of_le (by omega) (by omega)

theorem clampInt_nonneg (n : Nat) : 0 ≤ (Decimal.clampInt n).toInt := by
  rcases Nat.lt_or_ge n (2 ^ 63) with hlt | hge
  · rw [toInt_clampInt hlt]
    exact Int.natCast_nonneg n
  · unfold Decimal.clampInt Decimal.minInt Decimal.maxInt
    rw [if_neg (by omega), if_pos (by omega)]
    decide

/-- What is cut out at a place where a text occurs, in its length, is that text. -/
theorem substr_of_occursAt {s t : String} {p : Nat} (h : OccursAt t.toList s.toList p) (ht : t ≠ "")
    (hs : s.length < 2 ^ 63) :
    substr [.str s, .int (Decimal.clampInt p), Value.ofNat t.length] = .ok (.str t) := by
  have hle := h.le (toList_ne_nil ht)
  rw [String.length_toList, String.length_toList] at hle
  have hplace : clampIndex (Decimal.clampInt p) s.toList.length = p := by
    unfold clampIndex
    rw [toInt_clampInt (by omega), if_neg (by omega), String.length_toList]
    omega
  have hlength : (Decimal.clampInt t.length).toInt.toNat = t.toList.length := by
    rw [toInt_clampInt (by omega), Int.toNat_natCast, String.length_toList]
  show substr [.str s, .int (Decimal.clampInt p), .int (Decimal.clampInt t.length)] = _
  rw [Value.substr_count, hplace, hlength, h.take_eq]
  unfold ofChars
  rw [String.ofList_toList]

/-! ## The laws -/

/-- The parts of a text between the occurrences of another. -/
def parts (s t : String) : List String := (Text.split t.toList s.toList).map String.ofList

theorem parts_map_str (s t : String) : (parts s t).map Value.str = (Text.split t.toList s.toList).map ofChars := by
  unfold parts
  rw [List.map_map]
  rfl

theorem join_parts {t : String} (ht : t ≠ "") (s : String) :
    join [.list ((parts s t).map .str), .str t] = .ok (.str s) := by
  rw [parts_map_str, join_ofChars, Text.split, Text.intercalate_splitParts (toList_ne_nil ht)]
  unfold ofChars
  rw [String.ofList_toList]

theorem replace_eq_join_parts {t : String} (ht : t ≠ "") (s u : String) :
    replace [.str s, .str t, .str u] = join [.list ((parts s t).map .str), .str u] := by
  rw [parts_map_str, join_ofChars, replace_str ht, Text.replace, Text.replaceParts_eq]
  rfl

theorem not_occursAt_of_mem_parts {s t part : String} (ht : t ≠ "") (hpart : part ∈ parts s t) (j : Nat) :
    ¬ OccursAt t.toList part.toList j := by
  obtain ⟨cs, hcs, rfl⟩ := List.mem_map.mp hpart
  rw [String.toList_ofList]
  exact Text.not_occursAt_of_mem_splitParts (toList_ne_nil ht) (Nat.lt_succ_self _) hcs j

/-- Single characters give a text again. -/
theorem join_chars (s : String) :
    join [.list (s.toList.map fun c => ofChars [c]), .str ""] = .ok (.str s) := by
  have hmap : s.toList.map (fun c => ofChars [c]) = (s.toList.map fun c => [c]).map ofChars := by
    rw [List.map_map]
    rfl
  have hjoin : ∀ cs : List Char, List.intercalate [] (cs.map fun c => [c]) = cs := by
    intro cs
    induction cs with
    | nil => rfl
    | cons c cs ih =>
      cases cs with
      | nil => exact List.intercalate_singleton
      | cons d cs =>
        rw [List.map_cons, List.intercalate_cons_of_ne_nil (by simp), ih]
        rfl
  rw [hmap, join_ofChars, String.toList_empty, hjoin]
  unfold ofChars
  rw [String.ofList_toList]

/-- **A place that was found**: the text that was looked for stands there and nowhere before, and the first part ends
    there. -/
structure FoundAt (s t : String) (i : Int64) : Prop where
  cut : ∃ m, len [.str t] = .ok m ∧ substr [.str s, .int i, m] = .ok (.str t)
  first : ∃ first rest, parts s t = first :: rest ∧ len [.str first] = .ok (.int i)
  least (j : Nat) (hj : j < i.toInt) : ¬ OccursAt t.toList s.toList j

theorem foundAt_of_find? {s t : String} {p : Nat} (ht : t ≠ "") (hs : s.length < 2 ^ 63)
    (h : Text.find? t.toList s.toList = some p) : FoundAt s t (Decimal.clampInt p) := by
  obtain ⟨hoccurs, hleast⟩ := (Text.find?_eq_some_iff (toList_ne_nil ht)).mp h
  have hle : p + t.toList.length ≤ s.toList.length := hoccurs.le (toList_ne_nil ht)
  have hplace : (Decimal.clampInt p).toInt = p := by
    refine toInt_clampInt ?_
    rw [← String.length_toList] at hs
    omega
  refine ⟨⟨_, len_str t, substr_of_occursAt hoccurs ht hs⟩, ?_, fun j hj => ?_⟩
  · unfold parts
    rw [Text.split_eq_some h]
    refine ⟨_, _, rfl, ?_⟩
    rw [len_str, String.length_ofList, List.length_take_of_le (by omega)]
    rfl
  · rw [hplace] at hj
    exact hleast j (Int.ofNat_lt.mp hj)

/-- **The answers of a search agree.** The parts of a text, none of which holds the separator, give the text again when
    they are joined with it, and what replacing makes when they are joined with another text. A text contains another when
    finding gives a place, and when there are two parts at least. The place is the length of the first part; the text
    that was looked for stands there and nowhere before, as far as integers of 64 bits count places. Single
    characters give the text again as well. -/
theorem searches_agree (s t u : String) (ht : t ≠ "") :
    split [.str s, .str t] = .ok (.list ((parts s t).map .str)) ∧
    (∀ part ∈ parts s t, ∀ j, ¬ OccursAt t.toList part.toList j) ∧
    join [.list ((parts s t).map .str), .str t] = .ok (.str s) ∧
    replace [.str s, .str t, .str u] = join [.list ((parts s t).map .str), .str u] ∧
    (∃ (b : Bool) (i : Int64), contains [.str s, .str t] = .ok (.bool b) ∧ find [.str s, .str t] = .ok (.int i) ∧
      (b = true ↔ 0 ≤ i.toInt) ∧ (0 ≤ i.toInt ↔ 2 ≤ (parts s t).length) ∧
      (s.length < 2 ^ 63 → 0 ≤ i.toInt → FoundAt s t i)) ∧
    ∃ chars, split [.str s, .str ""] = .ok (.list chars) ∧ join [.list chars, .str ""] = .ok (.str s) := by
  refine ⟨by rw [parts_map_str, split_str ht], fun part hpart => not_occursAt_of_mem_parts ht hpart, join_parts ht s,
    replace_eq_join_parts ht s u, ?_, _, split_empty s, join_chars s⟩
  have htwo : 2 ≤ (parts s t).length ↔ (Text.find? t.toList s.toList).isSome = true := by
    unfold parts
    rw [List.length_map]
    exact Text.two_le_length_split
  rw [contains_str, Text.contains_eq, find_str]
  cases hfind : Text.find? t.toList s.toList with
  | none =>
    rw [hfind] at htwo
    have hneg : ¬ 0 ≤ (-1 : Int64).toInt := by decide
    exact ⟨false, -1, rfl, rfl, iff_of_false nofun hneg, iff_of_false hneg (mt htwo.mp nofun),
      fun _ h => absurd h hneg⟩
  | some p =>
    rw [hfind] at htwo
    have hnonneg := clampInt_nonneg p
    exact ⟨true, Decimal.clampInt p, rfl, rfl, iff_of_true rfl hnonneg, iff_of_true hnonneg (htwo.mpr rfl),
      fun hs _ => foundAt_of_find? ht hs hfind⟩

/-- A text that overlaps itself, behind characters of several bytes. -/
theorem searches_agree_overlapping : "aa" ≠ "" ∧
    (∀ part ∈ parts "éaaaé" "aa", ∀ j, ¬ OccursAt "aa".toList part.toList j) ∧
    join [.list ((parts "éaaaé" "aa").map .str), .str "aa"] = .ok (.str "éaaaé") ∧
    replace [.str "éaaaé", .str "aa", .str "b"] = join [.list ((parts "éaaaé" "aa").map .str), .str "b"] ∧
    FoundAt "éaaaé" "aa" 1 := by
  have h := searches_agree "éaaaé" "aa" "b" (by decide)
  obtain ⟨b, i, -, hfind, -, -, hfound⟩ := h.2.2.2.2.1
  have hi : (1 : Int64) = i := by
    have hone : find [.str "éaaaé", .str "aa"] = .ok (.int 1) := by rfl
    rw [hone] at hfind
    exact Value.int.inj (Except.ok.inj hfind)
  subst hi
  exact ⟨by decide, h.2.1, h.2.2.1, h.2.2.2.1, hfound (by decide) (by decide)⟩

end Builtin

end Helios
