import Mathlib.Data.List.Find
import Mathlib.Data.List.Nodup
import Mathlib.Data.List.Perm.Subperm
import Helios.Proofs.Balance

/-!
# View — what a running program sees of the arena

The **view** is the list of the variables of the frames in view, the innermost first and the global ones
last. Looking a name up, assigning, defining, entering and leaving are functions of the view alone: numbers
of frames, the free list and frames out of view play no part. That is the content of this module; it reads
`Scopes` as a stack.
-/

namespace Helios

namespace Scopes

/-! ## The frames in view -/

/-- The variables of a live frame. -/
def vars? (s : Scopes) (id : ScopeId) : Option (Bindings Value) := (s.frame? id).map Frame.vars

/-- The variables of some frames. -/
def varsOf (s : Scopes) (ids : List ScopeId) : List (Bindings Value) := ids.filterMap s.vars?

/-- **The view**: the variables of the frames in view, the innermost first. -/
def view (s : Scopes) : List (Bindings Value) := s.chain.map fun p => p.2.vars

theorem link?_eq_some {s : Scopes} {id : ScopeId} {p : Option ScopeId} (h : s.link? id = some p) :
    ∃ f, s.frame? id = some f ∧ f.parent = p := Option.map_eq_some_iff.mp h

/-- There is one chain from a frame. -/
theorem Chain.unique {s : Scopes} {id : ScopeId} {ids ids' : List ScopeId} (h : s.Chain id ids)
    (h' : s.Chain id ids') : ids = ids' := by
  induction h generalizing ids' with
  | root h =>
    cases h' with
    | root _ => rfl
    | cons h₁ _ => rw [h] at h₁; exact nomatch h₁
  | cons h _ ih =>
    cases h' with
    | root h₁ => rw [h] at h₁; exact nomatch h₁
    | cons h₁ hs₁ =>
      rw [h] at h₁
      cases h₁
      rw [ih hs₁]

/-- From each of its frames on, the rest of a chain is a chain. -/
theorem Chain.from_mem {s : Scopes} {id : ScopeId} {ids : List ScopeId} (h : s.Chain id ids) :
    ∀ i ∈ ids, ∃ ids', s.Chain i ids' ∧ ids'.length ≤ ids.length := by
  induction h with
  | root h =>
    intro i hi
    rw [List.mem_singleton.mp hi]
    exact ⟨_, .root h, Nat.le_refl _⟩
  | cons h hs ih =>
    intro i hi
    rcases List.mem_cons.mp hi with rfl | hi
    · exact ⟨_, .cons h hs, Nat.le_refl _⟩
    · obtain ⟨ids', h', hle⟩ := ih i hi
      exact ⟨ids', h', Nat.le_succ_of_le hle⟩

/-- No frame is in a chain twice. -/
theorem Chain.nodup {s : Scopes} {id : ScopeId} {ids : List ScopeId} (h : s.Chain id ids) : ids.Nodup := by
  induction h with
  | root h => exact List.nodup_singleton _
  | @cons id parent ids h hs ih =>
    refine List.nodup_cons.mpr ⟨fun hm => ?_, ih⟩
    -- a frame that comes again would start a chain both shorter and longer than this one
    obtain ⟨ids', h', hle⟩ := hs.from_mem id hm
    have heq := h'.unique (.cons h hs)
    rw [heq, List.length_cons] at hle
    omega

/-- No chain is longer than the arena. -/
theorem Chain.length_le {s : Scopes} {id : ScopeId} {ids : List ScopeId} (h : s.Chain id ids) :
    ids.length ≤ s.frames.size := by
  have hsub : ids ⊆ List.range s.frames.size := fun i hi => List.mem_range.mpr (h.live i hi).lt_size
  have hle := (List.subperm_of_subset h.nodup hsub).length_le
  rwa [List.length_range] at hle

theorem Chain.chainFrom_eq {s : Scopes} {id : ScopeId} {ids : List ScopeId} (h : s.Chain id ids) {fuel : Nat}
    (hf : ids.length ≤ fuel) : s.chainFrom fuel id = ids.filterMap fun i => (s.frame? i).map (Prod.mk i) := by
  induction h generalizing fuel with
  | root h =>
    obtain ⟨f, hfr, hp⟩ := link?_eq_some h
    obtain ⟨k, rfl⟩ : ∃ k, fuel = k + 1 := ⟨fuel - 1, by simp at hf; omega⟩
    simp [chainFrom, hfr, hp]
  | cons h _ ih =>
    obtain ⟨f, hfr, hp⟩ := link?_eq_some h
    obtain ⟨k, rfl⟩ : ∃ k, fuel = k + 1 := ⟨fuel - 1, by simp at hf; omega⟩
    rw [List.length_cons] at hf
    simp [chainFrom, hfr, hp, ih (Nat.le_of_succ_le_succ hf)]

theorem Chain.chain_eq {s : Scopes} {ids : List ScopeId} (h : s.Chain s.current ids) :
    s.chain = ids.filterMap fun i => (s.frame? i).map (Prod.mk i) := h.chainFrom_eq h.length_le

/-- The view is what the frames of the chain bind. -/
theorem Chain.view_eq {s : Scopes} {ids : List ScopeId} (h : s.Chain s.current ids) :
    s.view = s.varsOf ids := by
  unfold view varsOf vars?
  rw [h.chain_eq, List.map_filterMap]
  congr 1
  funext i
  cases s.frame? i <;> rfl

theorem Chain.find?_eq {s : Scopes} {ids : List ScopeId} (h : s.Chain s.current ids) (name : String) :
    s.find? name = ids.find? fun i => (s.vars? i).any (·.contains name) := by
  unfold find?
  rw [h.chain_eq]
  clear h
  induction ids with
  | nil => rfl
  | cons i ids ih =>
    unfold vars? at ih ⊢
    rw [List.filterMap_cons, List.find?_cons]
    cases hf : s.frame? i with
    | none => exact ih
    | some f =>
      dsimp only [Option.map_some, Option.any_some]
      rw [List.find?_cons]
      cases f.vars.contains name with
      | true => rfl
      | false => exact ih

theorem Chain.global_mem {s : Scopes} {id : ScopeId} {ids : List ScopeId} (h : s.Chain id ids) :
    global ∈ ids := by
  induction h with
  | root h => exact List.mem_singleton_self _
  | cons _ _ ih => exact List.mem_cons_of_mem _ ih

theorem Chain.head_mem {s : Scopes} {id : ScopeId} {ids : List ScopeId} (h : s.Chain id ids) : id ∈ ids := by
  cases h <;> exact List.mem_cons_self

theorem Chain.root_link {s : Scopes} {id : ScopeId} {ids : List ScopeId} (h : s.Chain id ids) :
    s.link? global = some none := by
  induction h with
  | root h => exact h
  | cons _ _ ih => exact ih

theorem Chain.getLast?_eq {s : Scopes} {id : ScopeId} {ids : List ScopeId} (h : s.Chain id ids) :
    ids.getLast? = some global := by
  induction h with
  | root _ => rfl
  | cons _ _ ih => rw [List.getLast?_cons, ih]; rfl

/-- Only the global frame has no parent. -/
theorem Chain.ne_global {s : Scopes} {id parent : ScopeId} {ids : List ScopeId}
    (h : s.link? id = some (some parent)) (hs : s.Chain parent ids) : id ≠ global := by
  rintro rfl
  have hroot := hs.root_link
  rw [h] at hroot
  exact nomatch hroot

/-! ## Changes of the view -/

end Scopes

namespace View

/-- Bind a name in the innermost frame. -/
def bindTop (name : String) (v : Value) : List (Bindings Value) → List (Bindings Value)
  | [] => []
  | b :: w => b.insert name v :: w

/-- Bind a name in the outermost frame. -/
def bindBottom (name : String) (v : Value) : List (Bindings Value) → List (Bindings Value)
  | [] => []
  | [b] => [b.insert name v]
  | b :: c :: w => b :: bindBottom name v (c :: w)

/-- Rebind a name in the innermost frame that binds it. -/
def rebind (name : String) (v : Value) : List (Bindings Value) → List (Bindings Value)
  | [] => []
  | b :: w => if b.contains name then b.insert name v :: w else b :: rebind name v w

/-- Rebind a name where it is bound, or else bind it in the innermost frame. -/
def assign (name : String) (v : Value) (w : List (Bindings Value)) : List (Bindings Value) :=
  if w.any (·.contains name) then rebind name v w else bindTop name v w

/-- Put other variables in the outermost frame. -/
def setBottom (b : Bindings Value) (w : List (Bindings Value)) : List (Bindings Value) := w.dropLast ++ [b]

end View

namespace Scopes

theorem vars?_bindIn (s : Scopes) (i : ScopeId) (name : String) (v : Value) (id : ScopeId) :
    (s.bindIn i name v).vars? id =
      if id = i then (s.vars? i).map (·.insert name v) else s.vars? id := by
  unfold vars?
  rw [frame?_bindIn]
  split
  · cases s.frame? i <;> rfl
  · rfl

theorem varsOf_congr {s s' : Scopes} {ids : List ScopeId} (h : ∀ i ∈ ids, s'.vars? i = s.vars? i) :
    s'.varsOf ids = s.varsOf ids := List.filterMap_congr h

theorem varsOf_bindIn_of_not_mem {s : Scopes} {i : ScopeId} {ids : List ScopeId} (h : i ∉ ids) (name : String)
    (v : Value) : (s.bindIn i name v).varsOf ids = s.varsOf ids := by
  refine varsOf_congr fun j hj => ?_
  rw [vars?_bindIn, if_neg]
  rintro rfl
  exact h hj

theorem varsOf_cons {s : Scopes} {id : ScopeId} {b : Bindings Value} (h : s.vars? id = some b)
    (ids : List ScopeId) : s.varsOf (id :: ids) = b :: s.varsOf ids := List.filterMap_cons_some h

theorem Live.vars? {s : Scopes} {id : ScopeId} (h : s.Live id) : ∃ b, s.vars? id = some b := by
  cases hf : s.frame? id with
  | none => exact absurd hf (live_iff.mp h)
  | some f => exact ⟨f.vars, by unfold Scopes.vars?; rw [hf]; rfl⟩

theorem Chain.varsOf_ne_nil {s : Scopes} {id : ScopeId} {ids : List ScopeId} (h : s.Chain id ids) :
    ∃ b w, s.varsOf ids = b :: w := by
  obtain ⟨b, hb⟩ := h.head_live.vars?
  cases h with
  | root _ => exact ⟨b, _, varsOf_cons hb []⟩
  | cons _ _ => exact ⟨b, _, varsOf_cons hb _⟩

/-- Binding in the first frame of a chain binds in the innermost one. -/
theorem Chain.varsOf_bindIn_head {s : Scopes} {id : ScopeId} {ids : List ScopeId} (h : s.Chain id ids)
    (name : String) (v : Value) : (s.bindIn id name v).varsOf ids = View.bindTop name v (s.varsOf ids) := by
  obtain ⟨b, hb⟩ := h.head_live.vars?
  have hb' : (s.bindIn id name v).vars? id = some (b.insert name v) := by
    rw [vars?_bindIn, if_pos rfl, hb]
    rfl
  have hnodup := h.nodup
  cases h with
  | root _ => rw [varsOf_cons hb, varsOf_cons hb']; rfl
  | cons _ _ =>
    rw [varsOf_cons hb, varsOf_cons hb', varsOf_bindIn_of_not_mem (List.nodup_cons.mp hnodup).1]
    rfl

/-- Binding in the global frame binds in the outermost one. -/
theorem Chain.varsOf_bindIn_global {s : Scopes} {id : ScopeId} {ids : List ScopeId} (h : s.Chain id ids)
    (name : String) (v : Value) :
    (s.bindIn global name v).varsOf ids = View.bindBottom name v (s.varsOf ids) := by
  induction h with
  | root h =>
    obtain ⟨b, hb⟩ := (Chain.root h).head_live.vars?
    have hb' : (s.bindIn global name v).vars? global = some (b.insert name v) := by
      rw [vars?_bindIn, if_pos rfl, hb]
      rfl
    rw [varsOf_cons hb, varsOf_cons hb']
    rfl
  | @cons id parent ids h hs ih =>
    obtain ⟨b, hb⟩ := (Chain.cons h hs).head_live.vars?
    have hb' : (s.bindIn global name v).vars? id = some b := by
      rw [vars?_bindIn, if_neg (ne_global h hs), hb]
    obtain ⟨c, w, hcw⟩ := hs.varsOf_ne_nil
    rw [varsOf_cons hb, varsOf_cons hb', ih, hcw]
    rfl

/-- Binding in the first frame that binds a name rebinds it in the innermost one that does. -/
theorem varsOf_bindIn_find {s : Scopes} {ids : List ScopeId} (hnodup : ids.Nodup) {name : String}
    {j : ScopeId} (hj : (ids.find? fun i => (s.vars? i).any (·.contains name)) = some j) (v : Value) :
    (s.bindIn j name v).varsOf ids = View.rebind name v (s.varsOf ids) := by
  induction ids with
  | nil => exact nomatch hj
  | cons i ids ih =>
    obtain ⟨hi, hnodup⟩ := List.nodup_cons.mp hnodup
    rw [List.find?_cons] at hj
    cases hb : s.vars? i with
    | none =>
      rw [hb] at hj
      have hne : i ≠ j := by
        rintro rfl
        exact hi (List.mem_of_find?_eq_some hj)
      have hb' : (s.bindIn j name v).vars? i = none := by rw [vars?_bindIn, if_neg hne, hb]
      unfold varsOf at ih ⊢
      rw [List.filterMap_cons_none hb, List.filterMap_cons_none hb']
      exact ih hnodup hj
    | some b =>
      rw [hb, Option.any_some] at hj
      rw [varsOf_cons hb, View.rebind]
      cases hc : b.contains name with
      | true =>
        rw [hc] at hj
        obtain rfl : i = j := Option.some.inj hj
        have hb' : (s.bindIn i name v).vars? i = some (b.insert name v) := by
          rw [vars?_bindIn, if_pos rfl, hb]
          rfl
        rw [varsOf_cons hb', varsOf_bindIn_of_not_mem hi, if_pos rfl]
      | false =>
        -- the frame that is found is further out, so this one stays
        rw [hc] at hj
        have hne : i ≠ j := by
          rintro rfl
          exact hi (List.mem_of_find?_eq_some hj)
        have hb' : (s.bindIn j name v).vars? i = some b := by rw [vars?_bindIn, if_neg hne, hb]
        rw [varsOf_cons hb', ih hnodup hj, if_neg (by simp)]

theorem any_varsOf (s : Scopes) (ids : List ScopeId) (name : String) :
    (s.varsOf ids).any (·.contains name) = (ids.find? fun i => (s.vars? i).any (·.contains name)).isSome := by
  rw [List.isSome_find?, varsOf, List.any_filterMap]
  rfl

theorem Chain.view_bindIn {s : Scopes} {ids : List ScopeId} (h : s.Chain s.current ids) (i : ScopeId)
    (name : String) (v : Value) : (s.bindIn i name v).view = (s.bindIn i name v).varsOf ids :=
  ((SameFrames.bindIn s i name v).chain h).view_eq

/-- **`define` binds in the innermost frame in view.** -/
theorem Chain.view_define {s : Scopes} {ids : List ScopeId} (h : s.Chain s.current ids) (name : String)
    (v : Value) : (s.define name v).view = View.bindTop name v s.view := by
  rw [define, h.view_bindIn, h.view_eq]
  exact h.varsOf_bindIn_head name v

/-- **`defineGlobal` binds in the outermost frame in view.** -/
theorem Chain.view_defineGlobal {s : Scopes} {ids : List ScopeId} (h : s.Chain s.current ids) (name : String)
    (v : Value) : (s.defineGlobal name v).view = View.bindBottom name v s.view := by
  rw [defineGlobal, h.view_bindIn, h.view_eq]
  exact h.varsOf_bindIn_global name v

/-- **`assign` rebinds in the innermost frame in view that binds the name**, if there is one. -/
theorem Chain.view_assign {s : Scopes} {ids : List ScopeId} (h : s.Chain s.current ids) (name : String)
    (v : Value) : (s.assign name v).view = View.assign name v s.view := by
  rw [assign, h.view_bindIn, h.view_eq, View.assign, any_varsOf, h.find?_eq]
  cases hj : ids.find? fun i => (s.vars? i).any (·.contains name) with
  | none => exact h.varsOf_bindIn_head name v
  | some j => exact varsOf_bindIn_find h.nodup hj v

/-! ## The global frame -/

/-- Frames that differ in their global variables at most. -/
theorem Chain.varsOf_setBottom {s s' : Scopes} {id : ScopeId} {ids : List ScopeId} (h : s.Chain id ids)
    (hsame : ∀ i ∈ ids, i ≠ global → s'.vars? i = s.vars? i) {b : Bindings Value}
    (hb : s'.vars? global = some b) : s'.varsOf ids = View.setBottom b (s.varsOf ids) := by
  induction h with
  | root h =>
    obtain ⟨c, hc⟩ := (Chain.root h).head_live.vars?
    rw [varsOf_cons hb, varsOf_cons hc]
    rfl
  | @cons id parent ids h hs ih =>
    obtain ⟨c, hc⟩ := (Chain.cons h hs).head_live.vars?
    have hc' : s'.vars? id = some c := by
      rw [hsame id List.mem_cons_self (ne_global h hs), hc]
    obtain ⟨d, w, hdw⟩ := hs.varsOf_ne_nil
    rw [varsOf_cons hc, varsOf_cons hc', ih fun i hi => hsame i (List.mem_cons_of_mem _ hi), hdw]
    rfl

/-- **Equal views have equal global variables.** -/
theorem Chain.vars?_global_eq {s s' : Scopes} {id id' : ScopeId} {ids ids' : List ScopeId}
    (h : s.Chain id ids) (h' : s'.Chain id' ids') (hview : s.varsOf ids = s'.varsOf ids') :
    s.vars? global = s'.vars? global := by
  obtain ⟨b, hb⟩ := (h.live global h.global_mem).vars?
  obtain ⟨b', hb'⟩ := (h'.live global h'.global_mem).vars?
  have heq := (h.varsOf_setBottom (fun _ _ _ => rfl) hb).symm.trans
    (hview.trans (h'.varsOf_setBottom (fun _ _ _ => rfl) hb'))
  unfold View.setBottom at heq
  rw [hb, hb', List.singleton_inj.mp (List.append_inj_right' heq rfl)]

/-! ## What is read of the view -/

theorem get?_eq_view (s : Scopes) (name : String) : s.get? name = s.view.findSome? (·.get? name) := by
  unfold view get?
  rw [List.findSome?_map]
  rfl

theorem visible_eq_view (s : Scopes) : s.visible = s.view.foldr (fun b outer => outer.override b) .empty := by
  unfold view visible
  rw [List.foldr_map]

/-- **The bindings in view are what looking names up gives.** -/
theorem get?_visible (s : Scopes) (name : String) : s.visible.get? name = s.get? name := by
  rw [visible_eq_view, get?_eq_view]
  induction s.view with
  | nil => rfl
  | cons b w ih =>
    rw [List.foldr_cons, Bindings.get?_override, ih, List.findSome?_cons]
    cases b.get? name <;> rfl

/-! ## Where a name is bound -/

theorem chainFrom_bindIn (s : Scopes) (i : ScopeId) (name : String) (v : Value) (fuel : Nat) (id : ScopeId) :
    (s.bindIn i name v).chainFrom fuel id = (s.chainFrom fuel id).map fun p =>
      (p.1, if p.1 = i then { p.2 with vars := p.2.vars.insert name v } else p.2) := by
  induction fuel generalizing id with
  | zero => rfl
  | succ fuel ih =>
    unfold chainFrom
    rw [frame?_bindIn]
    by_cases hid : id = i
    · subst hid
      rw [if_pos rfl]
      cases s.frame? id with
      | none => rfl
      | some f =>
        dsimp only [Option.map_some]
        cases hparent : f.parent with
        | none => simp [hparent]
        | some parent => simp [hparent, ih]
    · rw [if_neg hid]
      cases s.frame? id with
      | none => rfl
      | some f =>
        dsimp only
        cases f.parent with
        | none => simp [hid]
        | some parent => simp [ih, hid]

theorem frame?_of_mem_chainFrom {s : Scopes} {fuel : Nat} {id : ScopeId} :
    ∀ p ∈ s.chainFrom fuel id, s.frame? p.1 = some p.2 := by
  induction fuel generalizing id with
  | zero => nofun
  | succ fuel ih =>
    unfold chainFrom
    cases hf : s.frame? id with
    | none => nofun
    | some f =>
      dsimp only
      cases f.parent with
      | none => exact List.forall_mem_singleton.mpr hf
      | some parent => exact List.forall_mem_cons.mpr ⟨hf, ih⟩

/-- The frame that is found binds the name. -/
theorem vars?_of_find? {s : Scopes} {name : String} {i : ScopeId} (h : s.find? name = some i) :
    ∃ b, s.vars? i = some b ∧ b.contains name = true := by
  obtain ⟨p, hp, rfl⟩ := Option.map_eq_some_iff.mp h
  have hbound := List.find?_some hp
  refine ⟨p.2.vars, ?_, hbound⟩
  unfold vars?
  rw [frame?_of_mem_chainFrom p (List.mem_of_find?_eq_some hp)]
  rfl

/-- Rebinding a name in a frame that binds it moves no name. -/
theorem find?_bindIn {s : Scopes} {i : ScopeId} {name : String} {b : Bindings Value} (hb : s.vars? i = some b)
    (hbound : b.contains name = true) (v : Value) (n : String) : (s.bindIn i name v).find? n = s.find? n := by
  have hsize : (s.bindIn i name v).frames.size = s.frames.size := by
    unfold bindIn
    split <;> simp
  unfold find? chain
  rw [hsize, current_bindIn, chainFrom_bindIn, List.find?_map, Option.map_map]
  refine congrArg _ (List.find?_congr fun p hp => ?_)
  dsimp only [Function.comp]
  split
  · next hi =>
    have hvars : s.vars? i = some p.2.vars := by
      unfold vars?
      rw [← hi, frame?_of_mem_chainFrom p hp]
      rfl
    rw [hvars] at hb
    cases hb
    unfold Bindings.contains at hbound ⊢
    rw [Bindings.get?_insert]
    split
    · next hn =>
      rw [← hn, hbound]
      rfl
    · rfl
  · rfl

theorem find?_isSome_of_get? {s : Scopes} {name : String} {v : Value} (h : s.get? name = some v) :
    ∃ i, s.find? name = some i := by
  obtain ⟨p, hp, hv⟩ := List.exists_of_findSome?_eq_some h
  have hfound : (s.chain.find? fun p => p.2.vars.contains name).isSome = true := by
    refine List.find?_isSome.mpr ⟨p, hp, ?_⟩
    unfold Bindings.contains
    rw [hv]
    rfl
  obtain ⟨q, hq⟩ := Option.isSome_iff_exists.mp hfound
  exact ⟨q.1, Option.map_eq_some_iff.mpr ⟨q, hq, rfl⟩⟩

/-! ## Entering and leaving -/

theorem Sound.vars?_enter {s : Scopes} (h : s.Sound) (parent id : ScopeId) :
    (s.enter parent).2.vars? id = if id = s.nextId then some .empty else s.vars? id := by
  unfold vars?
  rw [h.frame?_enter]
  split <;> rfl

/-- **A new frame is empty, and the frames around it are those in view from its parent.** -/
theorem Chain.view_enter {s : Scopes} (hs : s.Sound) {parent : ScopeId} {ids : List ScopeId}
    (h : s.Chain parent ids) : (s.enter parent).2.view = .empty :: s.varsOf ids := by
  have h' : (s.enter parent).2.Chain (s.enter parent).2.current (s.nextId :: ids) := by
    rw [current_enter]
    exact h.enter_new hs
  have hnew : (s.enter parent).2.vars? s.nextId = some .empty := by rw [hs.vars?_enter, if_pos rfl]
  rw [h'.view_eq, varsOf_cons hnew]
  congr 1
  refine varsOf_congr fun i hi => ?_
  rw [hs.vars?_enter, if_neg]
  rintro rfl
  exact hs.not_live_nextId (h.live _ hi)

theorem vars?_leave {s : Scopes} (hc : s.current ≠ global) (hl : s.Live s.current) (saved id : ScopeId) :
    (s.leave saved).vars? id = if id = s.current then none else s.vars? id := by
  unfold vars?
  rw [frame?_leave hc hl]
  split <;> rfl

/-- A chain that the current frame is not in stays when the current frame is left. -/
theorem Chain.leave {s : Scopes} (hc : s.current ≠ global) (hl : s.Live s.current) {saved : ScopeId}
    {ids : List ScopeId} (h : s.Chain saved ids) (hn : s.current ∉ ids) :
    (s.leave saved).Chain saved ids := by
  refine h.congr_of_mem fun i hi => ?_
  rw [link?_leave hc hl, if_neg]
  rintro rfl
  exact hn hi

theorem Chain.view_leave {s : Scopes} (hc : s.current ≠ global) (hl : s.Live s.current) {saved : ScopeId}
    {ids : List ScopeId} (h : s.Chain saved ids) (hn : s.current ∉ ids) :
    (s.leave saved).view = s.varsOf ids := by
  have h' : (s.leave saved).Chain (s.leave saved).current ids := by
    rw [current_leave]
    exact h.leave hc hl hn
  rw [h'.view_eq]
  refine varsOf_congr fun i hi => ?_
  rw [vars?_leave hc hl, if_neg]
  rintro rfl
  exact hn hi

/-- **Leaving for the frame around takes the innermost frame off the view.** -/
theorem Chain.view_leave_parent {s : Scopes} {parent : ScopeId} {ids : List ScopeId}
    (hlink : s.link? s.current = some (some parent)) (h : s.Chain parent ids) :
    (s.leave parent).view = s.view.tail := by
  have hc : s.Chain s.current (s.current :: ids) := .cons hlink h
  obtain ⟨b, hb⟩ := hc.head_live.vars?
  have hn : s.current ∉ ids := (List.nodup_cons.mp hc.nodup).1
  rw [h.view_leave (ne_global hlink h) hc.head_live hn, hc.view_eq, varsOf_cons hb]
  rfl

end Scopes

end Helios
