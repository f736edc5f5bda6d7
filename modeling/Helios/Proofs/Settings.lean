import Helios.Proofs.LineEnds
import Helios.Proofs.Positional
import Helios.Settings

/-!
# Settings — what a file of settings comes to

A line of a settings file says nothing (`Setting.Silent`), or sets something (`Setting.Sets`), or has a problem. Both
are grammars of a line on its own: neither the number of the line nor what stands around it matters. A line is read
accordingly (`line_cases`).

So the problems of a file are those of its lines, under their numbers (`mem_readLines_snd`), and of each setting the last
line that sets it decides (`prevails_readLines`). A line with a problem leaves no trace but the problem: with an empty
line in its place the file comes to the same (`readLines_emptyLines`).
-/

namespace Helios

namespace Setting

/-! ## Lines -/

/-- **A line that says nothing**: it is blank, or a comment. -/
def Silent (line : List Char) : Prop := ∀ c, (Text.trim line).head? = some c → c = '#' ∨ c = ';'

/-- A value without its quotes. One that does not have both stands for itself. -/
inductive Bare : List Char → List Char → Prop
  | quoted (v : List Char) : Bare ('"' :: (v ++ ['"'])) v
  | plain {v : List Char} (h : ∀ w, v ≠ '"' :: (w ++ ['"'])) : Bare v v

/-- The words for the two positions of a switch. -/
def switchWords (on : Bool) : List String :=
  if on then ["on", "true", "yes", "1"] else ["off", "false", "no", "0"]

/-- A switch in one of its positions, in letters of either case. -/
def Switch (v : List Char) (on : Bool) : Prop := String.ofList (v.map Char.toLower) ∈ switchWords on

/-- **What a key and a bare value mean.** -/
inductive Means : String → List Char → Setting → Prop
  | log (v : List Char) : Means "log" v (.log (String.ofList v))
  | prelude (v : List Char) : Means "prelude" v (.prelude (String.ofList v))
  /-- Digits, with a plus sign before them or without, of a positive number of 64 bits. -/
  | maxDepth {v ds : List Char} (hv : v = ds ∨ v = '+' :: ds) (hds : Decimal.IsDigits ds)
      (hpos : 0 < Decimal.natOfDigits ds) (hword : Decimal.natOfDigits ds < 2 ^ 64) :
      Means "max_call_depth" v (.maxDepth (Decimal.natOfDigits ds))
  | python {v : List Char} {on : Bool} (h : Switch v on) : Means "python" v (.python on)
  | lua {v : List Char} {on : Bool} (h : Switch v on) : Means "lua" v (.lua on)

/-- **What a line sets**: a key, the first equals sign and a value, all of them with blanks around them. -/
structure Sets (line : List Char) (s : Setting) : Prop where
  speaks : ¬ Silent line
  means : ∃ key value bare, Text.trim line = key ++ '=' :: value ∧ '=' ∉ key ∧ Bare (Text.trim value) bare ∧
    Means (String.ofList (Text.trim key)) bare s

variable {line v w : List Char} {key : String} {s : Setting}

theorem isSilent_iff : isSilent line = true ↔ Silent line := by
  unfold isSilent Silent
  cases Text.trim line with
  | nil => simp
  | cons c cs => simp

theorem unquote_quoted (v : List Char) : unquote ('"' :: (v ++ ['"'])) = v := by
  simp [unquote]

theorem unquote_plain (h : ∀ w, v ≠ '"' :: (w ++ ['"'])) : unquote v = v := by
  unfold unquote
  split
  · next rest =>
    split
    · next hlast =>
      obtain ⟨w, rfl⟩ := List.getLast?_eq_some_iff.mp hlast
      exact absurd rfl (h w)
    · rfl
  · rfl

theorem unquote_of_bare (h : Bare v w) : unquote v = w := by
  cases h with
  | quoted => exact unquote_quoted w
  | plain h => exact unquote_plain h

theorem bare_unquote (v : List Char) : Bare v (unquote v) := by
  by_cases hquoted : ∃ bare, v = '"' :: (bare ++ ['"'])
  · obtain ⟨bare, rfl⟩ := hquoted
    rw [unquote_quoted]
    exact .quoted bare
  · have hplain : ∀ bare, v ≠ '"' :: (bare ++ ['"']) := fun bare hv => hquoted ⟨bare, hv⟩
    rw [unquote_plain hplain]
    exact .plain hplain

theorem switchWords_disjoint {word : String} (hon : word ∈ switchWords true) : word ∉ switchWords false := by
  simp only [switchWords, if_true, List.mem_cons, List.not_mem_nil, or_false] at hon
  rcases hon with rfl | rfl | rfl | rfl <;> decide

theorem readSwitch_eq (v : List Char) : readSwitch v =
    if String.ofList (v.map Char.toLower) ∈ switchWords true then some true
    else if String.ofList (v.map Char.toLower) ∈ switchWords false then some false
    else none := by
  unfold readSwitch
  simp only [List.contains_iff_mem]
  rfl

theorem readSwitch_eq_some_iff {on : Bool} : readSwitch v = some on ↔ Switch v on := by
  rw [readSwitch_eq]
  unfold Switch
  by_cases hon : String.ofList (v.map Char.toLower) ∈ switchWords true
  · have hoff := switchWords_disjoint hon
    cases on <;> simp [hon, hoff]
  · by_cases hoff : String.ofList (v.map Char.toLower) ∈ switchWords false
    · cases on <;> simp [hon, hoff]
    · cases on <;> simp [hon, hoff]

theorem readPositive_eq_some_iff {n : Nat} : readPositive v = some n ↔
    ∃ ds, (v = ds ∨ v = '+' :: ds) ∧ Decimal.IsDigits ds ∧ n = Decimal.natOfDigits ds ∧ 0 < n ∧ n < 2 ^ 64 := by
  have hread (ds : List Char) : (Decimal.readNat ds).filter (fun n => 0 < n && n ≤ maxWord) = some n ↔
      Decimal.IsDigits ds ∧ n = Decimal.natOfDigits ds ∧ 0 < n ∧ n < 2 ^ 64 := by
    unfold Decimal.readNat Decimal.IsDigits maxWord
    simp only [List.all_eq_true]
    by_cases hds : ds ≠ [] ∧ ∀ d ∈ ds, Decimal.isDigit d = true
    · rw [if_pos hds, Option.filter_eq_some_iff]
      simp only [Option.some.injEq, Bool.and_eq_true, decide_eq_true_eq]
      constructor
      · rintro ⟨rfl, hpos, hle⟩
        exact ⟨hds, rfl, hpos, by omega⟩
      · rintro ⟨-, rfl, hpos, hlt⟩
        exact ⟨rfl, hpos, by omega⟩
    · rw [if_neg hds]
      exact iff_of_false nofun fun h => hds h.1
  unfold readPositive
  dsimp only
  split
  · next rest =>
    rw [hread]
    constructor
    · exact fun h => ⟨rest, .inr rfl, h⟩
    · rintro ⟨ds, rfl | hv, h⟩
      · -- a plus sign is no digit
        exact absurd (h.1.2 '+' List.mem_cons_self) (by decide)
      · obtain rfl := (List.cons.inj hv).2
        exact h
  · next hplus =>
    rw [hread]
    constructor
    · exact fun h => ⟨v, .inl rfl, h⟩
    · rintro ⟨ds, rfl | rfl, h⟩
      · exact h
      · exact absurd rfl (hplus ds)

/-! ## What a line is read as -/

theorem ofSwitch_eq_ok_iff {make : Bool → Setting} :
    ofSwitch key make v = .ok s ↔ ∃ on, Switch v on ∧ s = make on := by
  unfold ofSwitch
  simp only [← readSwitch_eq_some_iff]
  cases readSwitch v with
  | none => simp
  | some on => simp [eq_comm]

theorem ofDepth_eq_ok_iff : ofPair "max_call_depth" v = .ok s ↔ ∃ n, readPositive v = some n ∧ s = .maxDepth n := by
  rw [ofPair]
  cases readPositive v with
  | none => simp
  | some n => simp [eq_comm]

/-- The keys there are. -/
def keys : List String := ["log", "prelude", "max_call_depth", "python", "lua"]

theorem ofPair_of_not_mem (h : key ∉ keys) : ofPair key v = .error (.unknownKey key) := by
  simp only [keys, List.mem_cons, List.not_mem_nil, or_false, not_or] at h
  obtain ⟨hlog, hprelude, hdepth, hpython, hlua⟩ := h
  simp only [ofPair]

/-- **A key and a value are read as what they mean.** -/
theorem ofPair_of_means (h : Means key v s) : ofPair key v = .ok s := by
  cases h with
  | log => rfl
  | prelude => rfl
  | maxDepth hv hds hpos hword =>
    rw [ofDepth_eq_ok_iff]
    refine ⟨_, ?_, rfl⟩
    rw [readPositive_eq_some_iff]
    exact ⟨_, hv, hds, rfl, hpos, hword⟩
  | python hon =>
    show ofSwitch "python" .python v = _
    rw [ofSwitch_eq_ok_iff]
    exact ⟨_, hon, rfl⟩
  | lua hon =>
    show ofSwitch "lua" .lua v = _
    rw [ofSwitch_eq_ok_iff]
    exact ⟨_, hon, rfl⟩

theorem means_of_ofPair (h : ofPair key v = .ok s) : Means key v s := by
  by_cases hkey : key ∈ keys
  · simp only [keys, List.mem_cons, List.not_mem_nil, or_false] at hkey
    rcases hkey with rfl | rfl | rfl | rfl | rfl
    · exact Except.ok.inj h ▸ .log v
    · exact Except.ok.inj h ▸ .prelude v
    · rw [ofDepth_eq_ok_iff] at h
      obtain ⟨n, hread, rfl⟩ := h
      rw [readPositive_eq_some_iff] at hread
      obtain ⟨ds, hv, hds, rfl, hpos, hlt⟩ := hread
      exact .maxDepth hv hds hpos hlt
    · change ofSwitch "python" .python v = .ok s at h
      rw [ofSwitch_eq_ok_iff] at h
      obtain ⟨on, hon, rfl⟩ := h
      exact .python hon
    · change ofSwitch "lua" .lua v = .ok s at h
      rw [ofSwitch_eq_ok_iff] at h
      obtain ⟨on, hon, rfl⟩ := h
      exact .lua hon
  · rw [ofPair_of_not_mem hkey] at h
    cases h

/-- Where the first equals sign cuts. -/
theorem cut_at_equals {cs key value : List Char} (h : cs = key ++ '=' :: value) (hkey : '=' ∉ key) :
    cs.takeWhile (· ≠ '=') = key ∧ (cs.dropWhile (· ≠ '=')).drop 1 = value := by
  have hpos : ∀ c ∈ key, decide (c ≠ '=') = true := fun c hc => decide_eq_true fun heq => hkey (heq ▸ hc)
  subst h
  rw [List.takeWhile_append_of_pos hpos, List.dropWhile_append_of_pos hpos]
  simp

theorem ofLine_of_silent (h : Silent line) : ofLine line = .ok none := by
  rw [← isSilent_iff] at h
  exact if_pos h

theorem ofLine_of_cut {key value : List Char} (hspeaks : ¬ Silent line) (hline : Text.trim line = key ++ '=' :: value)
    (hkey : '=' ∉ key) :
    ofLine line = (ofPair (String.ofList (Text.trim key)) (unquote (Text.trim value))).map some := by
  obtain ⟨htake, hdrop⟩ := cut_at_equals hline hkey
  have hmem : (Text.trim line).contains '=' = true := by simp [hline]
  rw [← isSilent_iff] at hspeaks
  unfold ofLine
  rw [if_neg hspeaks]
  dsimp only
  rw [if_pos hmem, htake, hdrop]

theorem ofLine_of_uncut (hspeaks : ¬ Silent line) (h : '=' ∉ Text.trim line) :
    ofLine line = .error (.noEquals (String.ofList (Text.trim line))) := by
  have hmem : ¬ (Text.trim line).contains '=' = true := mt List.contains_iff_mem.mp h
  rw [← isSilent_iff] at hspeaks
  unfold ofLine
  rw [if_neg hspeaks]
  dsimp only
  rw [if_neg hmem]

/-- **A line is read as what it sets.** -/
theorem ofLine_of_sets (h : Sets line s) : ofLine line = .ok (some s) := by
  obtain ⟨hspeaks, key, value, bare, hline, hkey, hbare, hmeans⟩ := h
  rw [ofLine_of_cut hspeaks hline hkey, unquote_of_bare hbare, ofPair_of_means hmeans]
  rfl

theorem sets_of_ofLine (hspeaks : ¬ Silent line) {o : Option Setting} (h : ofLine line = .ok o) :
    ∃ s, o = some s ∧ Sets line s := by
  by_cases hmem : '=' ∈ Text.trim line
  · obtain ⟨key, value, hline, hkey⟩ := List.eq_append_cons_of_mem hmem
    rw [ofLine_of_cut hspeaks hline hkey] at h
    cases hpair : ofPair (String.ofList (Text.trim key)) (unquote (Text.trim value)) with
    | error p =>
      rw [hpair] at h
      cases h
    | ok s =>
      rw [hpair] at h
      obtain rfl := Except.ok.inj h
      exact ⟨s, rfl, hspeaks, key, value, _, hline, hkey, bare_unquote _, means_of_ofPair hpair⟩
  · rw [ofLine_of_uncut hspeaks hmem] at h
    cases h

/-- **A line says nothing, or sets something, or has a problem.** -/
theorem line_cases (line : List Char) : Silent line ∨ (∃ s, Sets line s) ∨ ∃ p, ofLine line = .error p := by
  by_cases hspeaks : Silent line
  · exact .inl hspeaks
  cases hline : ofLine line with
  | error p => exact .inr (.inr ⟨p, rfl⟩)
  | ok o =>
    obtain ⟨s, -, hs⟩ := sets_of_ofLine hspeaks hline
    exact .inr (.inl ⟨s, hs⟩)

/-- A line sets at most one thing. -/
theorem Sets.unique {t : Setting} (h : Sets line s) (h' : Sets line t) : s = t := by
  have hline := ofLine_of_sets h
  rw [ofLine_of_sets h'] at hline
  exact (Option.some.inj (Except.ok.inj hline)).symm

/-- **A line has a problem** exactly when it speaks and sets nothing. -/
def Bad (line : List Char) : Prop := ¬ Silent line ∧ ∀ s, ¬ Sets line s

theorem bad_of_problem {p : SettingProblem} (h : ofLine line = .error p) : Bad line := by
  constructor
  · intro hsilent
    rw [ofLine_of_silent hsilent] at h
    cases h
  · intro s hs
    rw [ofLine_of_sets hs] at h
    cases h

theorem Bad.problem (h : Bad line) : ∃ p, ofLine line = .error p := by
  obtain ⟨hspeaks, hnone⟩ := h
  rcases line_cases line with hline | ⟨s, hline⟩ | hline
  · exact absurd hline hspeaks
  · exact absurd hline (hnone s)
  · exact hline

end Setting

namespace Settings

open Setting

variable {n : Nat} {s : Settings} {line : List Char} {lines : List (List Char)}

/-! ## Problems -/

theorem readLines_nil (n : Nat) (s : Settings) : readLines n s [] = (s, []) := rfl

theorem readLines_cons (n : Nat) (s : Settings) (line : List Char) (lines : List (List Char)) :
    readLines n s (line :: lines) =
      match ofLine line with
      | .ok none => readLines (n + 1) s lines
      | .ok (some setting) => readLines (n + 1) (s.set setting) lines
      | .error p => ((readLines (n + 1) s lines).1, ⟨n, p⟩ :: (readLines (n + 1) s lines).2) := rfl

theorem readLines_silent (h : Silent line) : readLines n s (line :: lines) = readLines (n + 1) s lines := by
  rw [readLines_cons, ofLine_of_silent h]

theorem readLines_sets {setting : Setting} (h : Sets line setting) :
    readLines n s (line :: lines) = readLines (n + 1) (s.set setting) lines := by
  rw [readLines_cons, ofLine_of_sets h]

theorem readLines_problem {p : SettingProblem} (h : ofLine line = .error p) : readLines n s (line :: lines) =
    ((readLines (n + 1) s lines).1, ⟨n, p⟩ :: (readLines (n + 1) s lines).2) := by
  rw [readLines_cons, h]

/-- **A problem is reported exactly where a line has it**, with the number of that line. -/
theorem mem_readLines_snd {p : Problem} : p ∈ (readLines n s lines).2 ↔
    ∃ i line, lines[i]? = some line ∧ p.line = n + i ∧ ofLine line = .error p.problem := by
  induction lines generalizing n s with
  | nil => simp [readLines_nil]
  | cons line lines ih =>
    -- the lines after the first
    have hlater : (∃ i later, lines[i]? = some later ∧ p.line = n + 1 + i ∧ ofLine later = .error p.problem) ↔
        ∃ i later, (line :: lines)[i + 1]? = some later ∧ p.line = n + (i + 1) ∧ ofLine later = .error p.problem := by
      simp only [List.getElem?_cons_succ, Nat.add_assoc, Nat.add_comm 1]
    -- a first line without a problem
    have hgood (hline : ∀ q, ofLine line ≠ .error q) :
        (∃ i later, (line :: lines)[i + 1]? = some later ∧ p.line = n + (i + 1) ∧
          ofLine later = .error p.problem) ↔
        ∃ i later, (line :: lines)[i]? = some later ∧ p.line = n + i ∧ ofLine later = .error p.problem := by
      constructor
      · rintro ⟨i, h⟩
        exact ⟨i + 1, h⟩
      · rintro ⟨i, later, hget, hnum, hp⟩
        cases i with
        | zero =>
          obtain rfl := Option.some.inj hget
          exact absurd hp (hline _)
        | succ i => exact ⟨i, later, hget, hnum, hp⟩
    rcases line_cases line with hline | ⟨setting, hline⟩ | ⟨q, hline⟩
    · rw [readLines_silent hline, ih, hlater]
      apply hgood
      intro q hq
      exact (bad_of_problem hq).1 hline
    · rw [readLines_sets hline, ih, hlater]
      apply hgood
      intro q hq
      exact (bad_of_problem hq).2 setting hline
    · rw [readLines_problem hline, List.mem_cons, ih, hlater]
      constructor
      · rintro (rfl | ⟨i, h⟩)
        · exact ⟨0, line, rfl, rfl, hline⟩
        · exact ⟨i + 1, h⟩
      · rintro ⟨i, later, hget, hnum, hp⟩
        cases i with
        | zero =>
          obtain rfl := Option.some.inj hget
          obtain rfl := Except.error.inj (hline.symm.trans hp)
          exact .inl (by rw [← show p.line = n from hnum])
        | succ i => exact .inr ⟨i, later, hget, hnum, hp⟩

/-- The numbers of the lines with problems grow from one problem to the next. -/
theorem pairwise_readLines_snd (n : Nat) (s : Settings) (lines : List (List Char)) :
    ((readLines n s lines).2.map Problem.line).Pairwise (· < ·) := by
  induction lines generalizing n s with
  | nil => exact .nil
  | cons line lines ih =>
    rcases line_cases line with hline | ⟨setting, hline⟩ | ⟨q, hline⟩
    · rw [readLines_silent hline]
      exact ih (n + 1) s
    · rw [readLines_sets hline]
      exact ih (n + 1) (s.set setting)
    · rw [readLines_problem hline, List.map_cons, List.pairwise_cons]
      refine ⟨fun m hm => ?_, ih (n + 1) s⟩
      -- the others are those of lines further down
      obtain ⟨p, hp, rfl⟩ := List.mem_map.mp hm
      rw [mem_readLines_snd] at hp
      obtain ⟨i, -, -, hnum, -⟩ := hp
      show n < p.line
      omega

/-- The numbers of the lines that are reported are those of the bad lines. -/
theorem mem_reported {m : Nat} : m ∈ (readLines n s lines).2.map Problem.line ↔
    ∃ i line, lines[i]? = some line ∧ m = n + i ∧ Bad line := by
  rw [List.mem_map]
  constructor
  · rintro ⟨p, hp, rfl⟩
    rw [mem_readLines_snd] at hp
    obtain ⟨i, line, hget, hnum, hline⟩ := hp
    exact ⟨i, line, hget, hnum, bad_of_problem hline⟩
  · rintro ⟨i, line, hget, rfl, hbad⟩
    obtain ⟨q, hq⟩ := hbad.problem
    refine ⟨⟨n + i, q⟩, ?_, rfl⟩
    rw [mem_readLines_snd]
    exact ⟨i, line, hget, rfl, hq⟩

/-! ## Without the bad lines -/

/-- The lines with an empty one in the place of each that has one of the numbers. The first line has the number `n`. -/
def emptyLines (numbers : List Nat) (n : Nat) (lines : List (List Char)) : List (List Char) :=
  lines.mapIdx fun i line => if n + i ∈ numbers then [] else line

/-- A text with the same line ends whose lines of these numbers are empty. -/
def emptied (numbers : List Nat) (text : String) : String :=
  String.ofList (Text.joinLines (emptyLines numbers 1 (Text.splitLines text.toList)))

theorem silent_nil : Silent [] := by
  intro c hc
  cases hc

/-- **Bad lines might as well be empty.** -/
theorem readLines_emptyLines {numbers : List Nat}
    (h : ∀ i line, lines[i]? = some line → (n + i ∈ numbers ↔ Bad line)) :
    readLines n s (emptyLines numbers n lines) = ((readLines n s lines).1, []) := by
  induction lines generalizing n s with
  | nil => rfl
  | cons line lines ih =>
    have hhead : n ∈ numbers ↔ Bad line := h 0 line rfl
    have hlater : ∀ i later, lines[i]? = some later → (n + 1 + i ∈ numbers ↔ Bad later) := by
      intro i later hget
      rw [Nat.add_assoc, Nat.add_comm 1 i]
      exact h (i + 1) later hget
    have hcons : emptyLines numbers n (line :: lines) =
        (if n ∈ numbers then [] else line) :: emptyLines numbers (n + 1) lines := by
      unfold emptyLines
      simp only [List.mapIdx_cons, Nat.add_zero, Nat.add_assoc, Nat.add_comm 1]
    rw [hcons]
    rcases line_cases line with hline | ⟨setting, hline⟩ | ⟨q, hline⟩
    · have hgood : n ∉ numbers := fun hmem => (hhead.mp hmem).1 hline
      rw [if_neg hgood, readLines_silent hline, readLines_silent hline]
      exact ih hlater
    · have hgood : n ∉ numbers := fun hmem => (hhead.mp hmem).2 setting hline
      rw [if_neg hgood, readLines_sets hline, readLines_sets hline]
      exact ih hlater
    · have hbad : n ∈ numbers := hhead.mpr (bad_of_problem hline)
      rw [if_pos hbad, readLines_silent silent_nil, readLines_problem hline]
      exact ih hlater

theorem splitLines_emptied (numbers : List Nat) (text : String) : Text.splitLines (emptied numbers text).toList =
    emptyLines numbers 1 (Text.splitLines text.toList) := by
  unfold emptied
  rw [String.toList_ofList]
  apply Text.splitLines_joinLines
  · have hlines := Text.splitLines_ne_nil text.toList
    simpa [emptyLines] using hlines
  · intro l hl
    obtain ⟨i, hi, rfl⟩ := List.mem_mapIdx.mp hl
    split
    · exact List.not_mem_nil
    · exact (Text.mem_splitLines (List.getElem_mem hi)).1

/-! ## What is in force -/

/-- **The last line that sets it decides**, and where there is none it is as it was. `about` is the value of it that a
    setting has, if it is about it. -/
inductive Prevails {α : Type} (about : Setting → Option α) (before : α) (lines : List (List Char)) : α → Prop
  | set {earlier later : List (List Char)} {line : List Char} {setting : Setting} {v : α}
      (hlines : lines = earlier ++ line :: later) (hline : Sets line setting) (hv : about setting = some v)
      (hlater : ∀ l ∈ later, ∀ t, Sets l t → about t = none) : Prevails about before lines v
  | unset (h : ∀ l ∈ lines, ∀ t, Sets l t → about t = none) : Prevails about before lines before

section Prevails

variable {α : Type} {about : Setting → Option α} {before v : α}

/-- A line in front that is not about it. -/
theorem Prevails.cons (h : Prevails about before lines v) (hline : ∀ t, Sets line t → about t = none) :
    Prevails about before (line :: lines) v := by
  cases h with
  | set hlines hset hv hlater =>
    subst hlines
    exact .set (List.cons_append).symm hset hv hlater
  | unset h =>
    apply Prevails.unset
    intro l hl
    rcases List.mem_cons.mp hl with rfl | hl
    · exact hline
    · exact h l hl

/-- A line in front that sets it to what was there before. -/
theorem Prevails.cons_set {setting : Setting} {w : α} (h : Prevails about w lines v) (hline : Sets line setting)
    (hw : about setting = some w) : Prevails about before (line :: lines) v := by
  cases h with
  | set hlines hset hv hlater =>
    subst hlines
    exact .set (List.cons_append).symm hset hv hlater
  | unset h => exact .set (List.nil_append _).symm hline hw h

/-- A property of every value that can be set and of the one before. -/
theorem Prevails.induct {P : α → Prop} (h : Prevails about before lines v) (hbefore : P before)
    (hsets : ∀ l t w, Sets l t → about t = some w → P w) : P v := by
  cases h with
  | set _ hline hv => exact hsets _ _ _ hline hv
  | unset => exact hbefore

/-- **What `get` reads off the settings is what prevails**, if one more setting changes it to what that says. -/
theorem prevails_readLines {get : Settings → α} (hset : ∀ s t, get (s.set t) = (about t).getD (get s)) (n : Nat)
    (s : Settings) (lines : List (List Char)) : Prevails about (get s) lines (get (readLines n s lines).1) := by
  induction lines generalizing n s with
  | nil => exact .unset fun l hl => absurd hl List.not_mem_nil
  | cons line lines ih =>
    rcases line_cases line with hline | ⟨setting, hline⟩ | ⟨q, hline⟩
    · rw [readLines_silent hline]
      exact (ih (n + 1) s).cons fun t ht => absurd hline ht.speaks
    · rw [readLines_sets hline]
      have hrest := ih (n + 1) (s.set setting)
      rw [hset] at hrest
      cases habout : about setting with
      | none =>
        rw [habout] at hrest
        exact hrest.cons fun t ht => hline.unique ht ▸ habout
      | some w =>
        rw [habout] at hrest
        exact hrest.cons_set hline habout
    · rw [readLines_problem hline]
      exact (ih (n + 1) s).cons fun t ht => absurd ht ((bad_of_problem hline).2 t)

end Prevails

end Settings

/-! What a setting is about. -/

namespace Setting

def log? : Setting → Option (Option String)
  | .log filter => some (some filter)
  | _ => none

def prelude? : Setting → Option (Option String)
  | .prelude path => some (some path)
  | _ => none

def maxDepth? : Setting → Option Nat
  | .maxDepth n => some n
  | _ => none

def python? : Setting → Option Bool
  | .python on => some on
  | _ => none

def lua? : Setting → Option Bool
  | .lua on => some on
  | _ => none

end Setting

namespace Settings

open Setting

/-- **What is in force after lines**: of each setting what prevails over the standard. -/
structure InForce (lines : List (List Char)) (s : Settings) : Prop where
  log : Prevails log? standard.log lines s.log
  prelude : Prevails prelude? standard.prelude lines s.prelude
  maxDepth : Prevails maxDepth? standard.maxDepth lines s.maxDepth
  python : Prevails python? standard.python lines s.python
  lua : Prevails lua? standard.lua lines s.lua

theorem inForce_readLines (lines : List (List Char)) : InForce lines (readLines 1 standard lines).1 where
  log := prevails_readLines (fun s t => by cases t <;> rfl) 1 standard lines
  prelude := prevails_readLines (fun s t => by cases t <;> rfl) 1 standard lines
  maxDepth := prevails_readLines (fun s t => by cases t <;> rfl) 1 standard lines
  python := prevails_readLines (fun s t => by cases t <;> rfl) 1 standard lines
  lua := prevails_readLines (fun s t => by cases t <;> rfl) 1 standard lines

/-- No line sets the depth of calls to zero. -/
theorem maxDepth?_pos {key : String} {bare : List Char} {setting : Setting} {depth : Nat} (h : Means key bare setting)
    (hdepth : maxDepth? setting = some depth) : 0 < depth := by
  cases h with
  | maxDepth _ _ hpos =>
    obtain rfl := Option.some.inj hdepth
    exact hpos
  | _ => nomatch hdepth

theorem InForce.maxDepth_pos {lines : List (List Char)} {s : Settings} (h : InForce lines s) : 1 ≤ s.maxDepth := by
  apply h.maxDepth.induct
  · show 1 ≤ 200
    decide
  · intro l t depth hline hdepth
    obtain ⟨-, _, _, _, -, -, -, hmeans⟩ := hline
    exact maxDepth?_pos hmeans hdepth

/-- **Bad lines are isolated.** Each of them is reported once, by its number and in the order of the text, and no other
    line is. With empty lines in their place the same settings are in force and nothing is reported. Of each setting the
    last line that sets it decides, and the depth of calls stays positive. -/
theorem bad_lines_isolated (text : String) :
    ((read text).2.map Problem.line).Pairwise (· < ·) ∧
    (∀ m, m ∈ (read text).2.map Problem.line ↔
      ∃ i line, (Text.splitLines text.toList)[i]? = some line ∧ m = i + 1 ∧ Bad line) ∧
    read (emptied ((read text).2.map Problem.line) text) = ((read text).1, []) ∧
    InForce (Text.splitLines text.toList) (read text).1 ∧ 1 ≤ (read text).1.maxDepth := by
  have hreported (m : Nat) : m ∈ (read text).2.map Problem.line ↔
      ∃ i line, (Text.splitLines text.toList)[i]? = some line ∧ m = i + 1 ∧ Bad line := by
    simp only [Nat.add_comm _ 1]
    exact mem_reported
  have hforce := inForce_readLines (Text.splitLines text.toList)
  refine ⟨pairwise_readLines_snd 1 standard _, hreported, ?_, hforce, hforce.maxDepth_pos⟩
  unfold read
  rw [splitLines_emptied]
  apply readLines_emptyLines
  show ∀ i line, _ → (1 + i ∈ (read text).2.map Problem.line ↔ Bad line)
  intro i line hget
  rw [hreported]
  constructor
  · rintro ⟨j, line', hget', hj, hbad⟩
    obtain rfl : i = j := by omega
    obtain rfl := Option.some.inj (hget.symm.trans hget')
    exact hbad
  · intro hbad
    exact ⟨i, line, hget, by omega, hbad⟩

/-- A setting twice, a value that is none, a line without an equals sign and a comment. -/
example : read "# depth\nmax_call_depth = 50\n lua\r\nmax_call_depth=0\npython=\"Off\"\nmax_call_depth = +60" =
    (⟨none, none, 60, false, true⟩, [⟨3, .noEquals "lua"⟩, ⟨4, .notPositive "0"⟩]) := by
  cbv

end Settings

end Helios
