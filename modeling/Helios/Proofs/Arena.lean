import Mathlib.Data.Finset.Card
import Mathlib.Data.Finset.Range
import Mathlib.Tactic.Tauto
import Helios.Proofs.Footprint

/-!
# Arena — frames, free numbers and chains of parents

A *sound* arena has a global frame without a parent, and its free list holds each dead number once. In a
*well-formed* one the parents of every live frame are live and end in the global frame.

Entering takes a dead number and leaving gives it back, so what happens between them shows in the arena only
if it changed which frames there are (`leave_of_links`). Binding a name never does (`link?_bindIn`).
-/

namespace Helios

namespace Scopes

/-! ## Frames and links -/

/-- The parent of a live frame; `none` for a number that is dead. -/
def link? (s : Scopes) (id : ScopeId) : Option (Option ScopeId) := (s.frame? id).map Frame.parent

/-- Whether a frame is live. -/
def Live (s : Scopes) (id : ScopeId) : Prop := s.link? id ≠ none

/-- **A sound arena.** -/
structure Sound (s : Scopes) : Prop where
  /-- The global frame is live and has no parent. -/
  root : s.link? global = some none
  nodup : s.free.Nodup
  /-- The free numbers are the dead ones. -/
  mem_free : ∀ id, id ∈ s.free ↔ id < s.frames.size ∧ s.frame? id = none

/-- From a frame outward to the global one, through live frames. -/
inductive Chain (s : Scopes) : ScopeId → List ScopeId → Prop
  | root (h : s.link? global = some none) : Chain s global [global]
  | cons {id parent : ScopeId} {ids : List ScopeId} (h : s.link? id = some (some parent))
    (hs : Chain s parent ids) : Chain s id (id :: ids)

/-- **A well-formed arena**: moreover the parents of every live frame are live and end in the global one. -/
structure WellFormed (s : Scopes) : Prop extends Sound s where
  chain : ∀ id, s.Live id → ∃ ids, s.Chain id ids

/-- A frame is live if it has not been left. -/
theorem live_iff {s : Scopes} {id : ScopeId} : s.Live id ↔ s.frame? id ≠ none := by
  unfold Live link?
  cases s.frame? id <;> simp

theorem frame?_eq_none_of_size_le {s : Scopes} {id : ScopeId} (h : s.frames.size ≤ id) :
    s.frame? id = none := by
  unfold frame?
  rw [Array.getElem?_eq_none h]
  rfl

/-- Live frames have been made. -/
theorem Live.lt_size {s : Scopes} {id : ScopeId} (h : s.Live id) : id < s.frames.size := by
  rcases Nat.lt_or_ge id s.frames.size with hlt | hge
  · exact hlt
  · exact absurd (frame?_eq_none_of_size_le hge) (live_iff.mp h)

theorem Sound.live_global {s : Scopes} (h : s.Sound) : s.Live global := by
  unfold Live
  rw [h.root]
  exact nofun

/-! ## Binding -/

/-- Putting a frame into a slot. -/
theorem frame?_set (frames : Array (Option Frame)) (free free' : List ScopeId) (current current' : ScopeId)
    (i : ScopeId) (f : Option Frame) (hi : i < frames.size) (id : ScopeId) :
    (⟨frames.setIfInBounds i f, free, current⟩ : Scopes).frame? id =
      if id = i then f else (⟨frames, free', current'⟩ : Scopes).frame? id := by
  unfold frame?
  rw [Array.getElem?_setIfInBounds]
  by_cases h : id = i
  · subst h; rw [if_pos rfl, if_pos hi, if_pos rfl]; rfl
  · rw [if_neg (Ne.symm h), if_neg h]

/-- **Binding a name changes one frame**, and there only its variables. -/
theorem frame?_bindIn (s : Scopes) (i : ScopeId) (name : String) (v : Value) (id : ScopeId) :
    (s.bindIn i name v).frame? id =
      if id = i then (s.frame? i).map fun f => { f with vars := f.vars.insert name v } else s.frame? id := by
  unfold bindIn
  cases h : s.frame? i with
  | none =>
    by_cases hid : id = i
    · subst hid; rw [if_pos rfl]; exact h
    · rw [if_neg hid]
  | some f =>
    have hi : i < s.frames.size := Live.lt_size (live_iff.mpr (by rw [h]; exact nofun))
    exact frame?_set s.frames s.free s.free s.current s.current i _ hi id

theorem current_bindIn (s : Scopes) (i : ScopeId) (name : String) (v : Value) :
    (s.bindIn i name v).current = s.current := by
  unfold bindIn
  split <;> rfl

/-- Binding keeps the links. -/
theorem link?_bindIn (s : Scopes) (i : ScopeId) (name : String) (v : Value) (id : ScopeId) :
    (s.bindIn i name v).link? id = s.link? id := by
  unfold link?
  rw [frame?_bindIn]
  split
  · rename_i h; subst h; cases s.frame? id <;> rfl
  · rfl

/-- What a sound arena is made of besides the contents of frames. -/
theorem Sound.of_same {s s' : Scopes} (h : s.Sound) (hsize : s'.frames.size = s.frames.size)
    (hfree : s'.free = s.free) (hlink : ∀ id, s'.link? id = s.link? id) : s'.Sound where
  root := by rw [hlink]; exact h.root
  nodup := by rw [hfree]; exact h.nodup
  mem_free id := by
    have hnone : s'.frame? id = none ↔ s.frame? id = none := by
      have := hlink id
      unfold link? at this
      rw [← Option.map_eq_none_iff (f := Frame.parent), this, Option.map_eq_none_iff]
    rw [hfree, hsize, h.mem_free, hnone]

/-- And with them everything that is said of links. -/
theorem Sound.bindIn {s : Scopes} (h : s.Sound) (i : ScopeId) (name : String) (v : Value) :
    (s.bindIn i name v).Sound := by
  refine h.of_same ?_ ?_ (s.link?_bindIn i name v)
  · unfold Scopes.bindIn
    split
    · exact Array.size_setIfInBounds
    · rfl
  · unfold Scopes.bindIn
    split <;> rfl

/-! ## Entering and leaving -/

/-- The number that the next frame takes. -/
def nextId (s : Scopes) : ScopeId := s.free.headD s.frames.size

/-- The slot for the next frame is empty. -/
theorem Sound.frame?_nextId {s : Scopes} (h : s.Sound) : s.frame? s.nextId = none := by
  unfold nextId
  cases hf : s.free with
  | nil => exact frame?_eq_none_of_size_le (Nat.le_refl _)
  | cons id free => exact ((h.mem_free id).mp (by rw [hf]; exact List.mem_cons_self)).2

theorem Sound.not_live_nextId {s : Scopes} (h : s.Sound) : ¬ s.Live s.nextId :=
  fun hl => live_iff.mp hl h.frame?_nextId

theorem Sound.nextId_ne_global {s : Scopes} (h : s.Sound) : s.nextId ≠ global :=
  fun he => h.not_live_nextId (he ▸ h.live_global)

/-- The new frame is the current one. -/
theorem current_enter (s : Scopes) (parent : ScopeId) : (s.enter parent).2.current = s.nextId := by
  unfold enter nextId
  cases s.free <;> rfl

/-- **Entering adds one frame**, at a number that was dead. -/
theorem Sound.frame?_enter {s : Scopes} (h : s.Sound) (parent id : ScopeId) :
    (s.enter parent).2.frame? id = if id = s.nextId then some ⟨.empty, some parent⟩ else s.frame? id := by
  unfold enter nextId
  cases hf : s.free with
  | nil =>
    show ((s.frames.push _)[id]?).join = _
    rw [Array.getElem?_push]
    by_cases hid : id = s.frames.size
    · rw [if_pos hid]; exact (if_pos hid).symm
    · rw [if_neg hid]; exact (if_neg hid).symm
  | cons i free =>
    have hi : i < s.frames.size := ((h.mem_free i).mp (by rw [hf]; exact List.mem_cons_self)).1
    exact frame?_set s.frames free s.free i s.current i _ hi id

theorem Sound.link?_enter {s : Scopes} (h : s.Sound) (parent id : ScopeId) :
    (s.enter parent).2.link? id = if id = s.nextId then some (some parent) else s.link? id := by
  unfold link?
  rw [h.frame?_enter]
  split <;> rfl

/-- **Entering keeps the arena sound.** -/
theorem Sound.enter {s : Scopes} (h : s.Sound) (parent : ScopeId) : (s.enter parent).2.Sound where
  root := by
    rw [h.link?_enter, if_neg (Ne.symm h.nextId_ne_global)]
    exact h.root
  nodup := by
    unfold Scopes.enter
    cases hf : s.free with
    | nil => exact List.nodup_nil
    | cons i free => exact (List.nodup_cons.mp (hf ▸ h.nodup)).2
  mem_free id := by
    rw [h.frame?_enter]
    unfold Scopes.enter nextId
    cases hf : s.free with
    | nil =>
      -- no slot is free, and the new frame gets one behind the others
      show id ∈ [] ↔ id < (s.frames.push _).size ∧ (if id = s.frames.size then _ else _) = none
      have hfree := h.mem_free id
      rw [hf] at hfree
      rw [Array.size_push]
      constructor
      · exact nofun
      · rintro ⟨hlt, hnone⟩
        split at hnone
        · exact nomatch hnone
        · rename_i hne
          exact hfree.mpr ⟨Nat.lt_of_le_of_ne (Nat.le_of_lt_succ hlt) hne, hnone⟩
    | cons i free =>
      -- the new frame gets the first free slot, which the list of free slots has once
      show id ∈ free ↔ id < (s.frames.setIfInBounds i _).size ∧ (if id = i then _ else _) = none
      have hfree := h.mem_free id
      have hnodup := h.nodup
      rw [hf] at hfree hnodup
      rw [Array.size_setIfInBounds]
      constructor
      · intro hmem
        have hne : id ≠ i := fun he => (List.nodup_cons.mp hnodup).1 (he ▸ hmem)
        rw [if_neg hne]
        exact hfree.mp (List.mem_cons_of_mem i hmem)
      · rintro ⟨hlt, hnone⟩
        split at hnone
        · exact nomatch hnone
        · rename_i hne
          exact (List.mem_cons.mp (hfree.mpr ⟨hlt, hnone⟩)).resolve_left hne

/-- **Leaving takes one frame away**, the current one. -/
theorem frame?_leave {s : Scopes} (hc : s.current ≠ global) (hl : s.Live s.current) (saved id : ScopeId) :
    (s.leave saved).frame? id = if id = s.current then none else s.frame? id := by
  unfold leave
  rw [if_neg hc]
  exact frame?_set s.frames (s.current :: s.free) s.free saved s.current s.current none hl.lt_size id

theorem current_leave (s : Scopes) (saved : ScopeId) : (s.leave saved).current = saved := by
  unfold leave
  split <;> rfl

theorem link?_leave {s : Scopes} (hc : s.current ≠ global) (hl : s.Live s.current) (saved id : ScopeId) :
    (s.leave saved).link? id = if id = s.current then none else s.link? id := by
  unfold link?
  rw [frame?_leave hc hl]
  split <;> rfl

/-- **So does leaving a frame that is not the global one.** -/
theorem Sound.leave {s : Scopes} (h : s.Sound) (hc : s.current ≠ global) (hl : s.Live s.current)
    (saved : ScopeId) : (s.leave saved).Sound where
  root := by
    rw [link?_leave hc hl, if_neg (Ne.symm hc)]
    exact h.root
  nodup := by
    unfold Scopes.leave
    rw [if_neg hc]
    exact List.nodup_cons.mpr ⟨fun hm => live_iff.mp hl ((h.mem_free _).mp hm).2, h.nodup⟩
  mem_free id := by
    rw [frame?_leave hc hl]
    unfold Scopes.leave
    rw [if_neg hc]
    show id ∈ s.current :: s.free ↔ id < (s.frames.setIfInBounds s.current none).size ∧ _
    rw [Array.size_setIfInBounds, List.mem_cons, h.mem_free]
    by_cases hid : id = s.current
    · subst hid; simp [hl.lt_size]
    · simp [hid]

/-- As long as the frames stay, the frame that was entered is live, and not the global one. -/
theorem Sound.live_nextId {s s' : Scopes} (h : s.Sound) (parent : ScopeId) (hc : s'.current = s.nextId)
    (hlink : ∀ id, s'.link? id = (s.enter parent).2.link? id) : s'.Live s'.current ∧ s'.current ≠ global := by
  constructor
  · unfold Live
    rw [hlink, hc, h.link?_enter, if_pos rfl]
    exact nofun
  · rw [hc]
    exact h.nextId_ne_global

/-- **A frame that is entered and left leaves no trace**: whatever happened in between, if it kept the frames
    and came back to the one that was entered, then the frames are those from before. -/
theorem Sound.leave_of_links {s s' : Scopes} (h : s.Sound) (parent : ScopeId) (h' : s'.Sound)
    (hc : s'.current = s.nextId) (hlink : ∀ id, s'.link? id = (s.enter parent).2.link? id) (saved : ScopeId) :
    (s'.leave saved).Sound ∧ ∀ id, (s'.leave saved).link? id = s.link? id := by
  obtain ⟨hl, hne⟩ := h.live_nextId parent hc hlink
  refine ⟨h'.leave hne hl saved, fun id => ?_⟩
  rw [link?_leave hne hl, hlink, hc, h.link?_enter]
  split
  · rename_i hid
    subst hid
    unfold link?
    rw [h.frame?_nextId]
    rfl
  · rfl

/-! ## Chains -/

/-- A chain depends on the links of its own frames. -/
theorem Chain.congr_of_mem {s s' : Scopes} {id : ScopeId} {ids : List ScopeId} (h : s.Chain id ids)
    (hlink : ∀ i ∈ ids, s'.link? i = s.link? i) : s'.Chain id ids := by
  induction h with
  | root h => exact .root (by rw [hlink _ List.mem_cons_self]; exact h)
  | cons h _ ih =>
    refine .cons ?_ (ih fun i hi => hlink i (List.mem_cons_of_mem _ hi))
    rw [hlink _ List.mem_cons_self]
    exact h

theorem WellFormed.congr {s s' : Scopes} (h : s.WellFormed) (h' : s'.Sound)
    (hlink : ∀ id, s'.link? id = s.link? id) : s'.WellFormed where
  toSound := h'
  chain id hid := by
    unfold Live at hid
    rw [hlink] at hid
    obtain ⟨ids, hids⟩ := h.chain id hid
    exact ⟨ids, hids.congr_of_mem fun i _ => hlink i⟩

theorem Chain.head_live {s : Scopes} {id : ScopeId} {ids : List ScopeId} (h : s.Chain id ids) :
    s.Live id := by
  unfold Live
  cases h with
  | root h => rw [h]; exact nofun
  | cons h _ => rw [h]; exact nofun

/-- The frames in view are live. -/
theorem Chain.live {s : Scopes} {id : ScopeId} {ids : List ScopeId} (h : s.Chain id ids) :
    ∀ i ∈ ids, s.Live i := by
  induction h with
  | root h =>
    intro i hi
    rw [List.mem_singleton.mp hi]
    exact (Chain.root h).head_live
  | cons h hs ih =>
    intro i hi
    rcases List.mem_cons.mp hi with rfl | hi
    · exact (Chain.cons h hs).head_live
    · exact ih i hi

theorem Chain.enter {s : Scopes} (hs : s.Sound) {id : ScopeId} {ids : List ScopeId} (h : s.Chain id ids)
    (parent : ScopeId) : (s.enter parent).2.Chain id ids := by
  refine h.congr_of_mem fun i hi => ?_
  rw [hs.link?_enter, if_neg]
  rintro rfl
  exact hs.not_live_nextId (h.live _ hi)

/-- What was in view of the parent is in view of the new frame. -/
theorem Chain.enter_new {s : Scopes} (hs : s.Sound) {parent : ScopeId} {ids : List ScopeId}
    (h : s.Chain parent ids) : (s.enter parent).2.Chain s.nextId (s.nextId :: ids) :=
  .cons (by rw [hs.link?_enter, if_pos rfl]) (h.enter hs parent)

/-- A frame inside a live one keeps the arena well formed. -/
theorem WellFormed.enter {s : Scopes} (h : s.WellFormed) {parent : ScopeId} (hp : s.Live parent) :
    (s.enter parent).2.WellFormed where
  toSound := h.toSound.enter parent
  chain id hid := by
    by_cases hn : id = s.nextId
    · obtain ⟨ids, hids⟩ := h.chain parent hp
      exact ⟨_, hn ▸ hids.enter_new h.toSound⟩
    · unfold Live at hid
      rw [h.toSound.link?_enter, if_neg hn] at hid
      obtain ⟨ids, hids⟩ := h.chain id hid
      exact ⟨ids, hids.enter h.toSound parent⟩

/-- The global frame alone. -/
theorem wellFormed_initial : initial.WellFormed where
  root := rfl
  nodup := List.nodup_nil
  mem_free id := by
    refine ⟨nofun, fun ⟨hlt, hnone⟩ => ?_⟩
    rw [show id = 0 from Nat.lt_one_iff.mp hlt] at hnone
    exact nomatch hnone
  chain id hid := by
    have hlt : id < 1 := hid.lt_size
    rw [show id = global from Nat.lt_one_iff.mp hlt]
    exact ⟨_, .root rfl⟩

/-! ## The number of live frames -/

/-- The live frames. -/
def liveIds (s : Scopes) : Finset ScopeId := (Finset.range s.frames.size).filter fun id => s.frame? id ≠ none

theorem mem_liveIds {s : Scopes} {id : ScopeId} : id ∈ s.liveIds ↔ s.Live id := by
  unfold liveIds
  rw [Finset.mem_filter, Finset.mem_range, live_iff]
  exact ⟨And.right, fun h => ⟨(live_iff.mpr h).lt_size, h⟩⟩

/-- **`live` counts the live frames.** -/
theorem Sound.live_eq_card {s : Scopes} (h : s.Sound) : s.live = s.liveIds.card := by
  have hlive : s.liveIds = Finset.range s.frames.size \ s.free.toFinset := by
    ext id
    rw [liveIds, Finset.mem_filter, Finset.mem_sdiff, List.mem_toFinset, h.mem_free, Finset.mem_range]
    tauto
  have hsub : s.free.toFinset ⊆ Finset.range s.frames.size := by
    intro id hid
    rw [List.mem_toFinset, h.mem_free] at hid
    exact Finset.mem_range.mpr hid.1
  rw [hlive, Finset.card_sdiff_of_subset hsub, Finset.card_range, List.toFinset_card_of_nodup h.nodup]
  rfl

theorem Sound.live_congr {s s' : Scopes} (h : s.Sound) (h' : s'.Sound)
    (hlink : ∀ id, s'.link? id = s.link? id) : s'.live = s.live := by
  rw [h.live_eq_card, h'.live_eq_card]
  congr 1
  ext id
  rw [mem_liveIds, mem_liveIds, Live, Live, hlink]

end Scopes

end Helios
