import Helios.Proofs.View

/-!
# Stack — the arena of frames refines a stack of maps

Numbers of frames are used again while other frames still hold links, so it is not obvious that the arena is
a stack. Here is the stack: the global map and the maps of the frames that were entered and not left, each
marked as a block or a call (`Stack`). From a block the frame below is in view, and from a call the global
map only (`Stack.view`).

`Scopes.Refines s saved k` ties an arena to a stack. It lists the numbers of the frames, the current one first
and then those that `leave` will be given (`saved`). They differ from one another and are all the live
numbers, and each frame holds the map of its level and a link to what is in view from it (`Scopes.Laid`). Every
operation keeps this (`Refines.step`), and so does every properly nested sequence (`Refines.run`).
-/

namespace Helios

/-! ## The stack -/

/-- What a frame was entered for; it decides what is in view around it. -/
inductive FrameKind
  | block | call
  deriving DecidableEq, Repr

/-- **A stack of maps**: the global one, and those of the frames that were entered and not left, the innermost
    first. -/
structure Stack where
  globals : Bindings Value
  frames : List (FrameKind × Bindings Value)

namespace Stack

/-- Only the global map, without variables. -/
def initial : Stack := ⟨.empty, []⟩

/-- The maps in view from some frames over the global map. -/
def viewOf (globals : Bindings Value) : List (FrameKind × Bindings Value) → List (Bindings Value)
  | [] => [globals]
  | (.block, b) :: rest => b :: viewOf globals rest
  | (.call, b) :: _ => [b, globals]

/-- **The maps in view**, the innermost first. -/
def view (k : Stack) : List (Bindings Value) := viewOf k.globals k.frames

/-- The value of a name: that of the innermost map in view that binds it. -/
def get? (k : Stack) (name : String) : Option Value := k.view.findSome? (·.get? name)

/-- Whether a map in view binds a name. -/
def contains (k : Stack) (name : String) : Bool := k.view.any (·.contains name)

/-- Enter a frame; it is empty. -/
def enter (k : Stack) (kind : FrameKind) : Stack := ⟨k.globals, (kind, .empty) :: k.frames⟩

/-- Bind a name in the top map. -/
def define (k : Stack) (name : String) (v : Value) : Stack :=
  match k.frames with
  | [] => ⟨k.globals.insert name v, []⟩
  | (kind, b) :: rest => ⟨k.globals, (kind, b.insert name v) :: rest⟩

/-- Bind a name in the global map. -/
def defineGlobal (k : Stack) (name : String) (v : Value) : Stack := ⟨k.globals.insert name v, k.frames⟩

/-- Rebind a name in the innermost map in view that binds it, if there is one. -/
def rebind? (name : String) (v : Value) (globals : Bindings Value) :
    List (FrameKind × Bindings Value) → Option Stack
  | [] => if globals.contains name then some ⟨globals.insert name v, []⟩ else none
  | (kind, b) :: rest =>
    if b.contains name then some ⟨globals, (kind, b.insert name v) :: rest⟩
    else match kind with
      | .block => (rebind? name v globals rest).map fun k => ⟨k.globals, (.block, b) :: k.frames⟩
      | .call =>
        if globals.contains name then some ⟨globals.insert name v, (.call, b) :: rest⟩ else none

/-- Rebind a name where it is bound in view, or else bind it in the top map. -/
def assign (k : Stack) (name : String) (v : Value) : Stack :=
  (rebind? name v k.globals k.frames).getD (k.define name v)

end Stack

/-! ## Sequences of operations -/

/-- An operation on scopes. -/
inductive ScopeOp
  | enterBlock
  | enterCall
  /-- Leave the frame entered last, for the one that was current before. -/
  | leave
  | assign (name : String) (v : Value)
  | define (name : String) (v : Value)
  | defineGlobal (name : String) (v : Value)

/-- **Properly nested operations** inside `depth` frames: every `leave` has a frame to leave. -/
def ScopeOp.nested : Nat → List ScopeOp → Bool
  | _, [] => true
  | depth, .enterBlock :: ops => nested (depth + 1) ops
  | depth, .enterCall :: ops => nested (depth + 1) ops
  | 0, .leave :: _ => false
  | depth + 1, .leave :: ops => nested depth ops
  | depth, .assign _ _ :: ops => nested depth ops
  | depth, .define _ _ :: ops => nested depth ops
  | depth, .defineGlobal _ _ :: ops => nested depth ops

/-- Carry out an operation on an arena. What entering returned is kept, and given to the `leave` that
    matches. -/
def Scopes.step : Scopes × List ScopeId → ScopeOp → Option (Scopes × List ScopeId)
  | (s, saved), .enterBlock => some (s.enterBlock.2, s.enterBlock.1 :: saved)
  | (s, saved), .enterCall => some (s.enterCall.2, s.enterCall.1 :: saved)
  | (_, []), .leave => none
  | (s, id :: saved), .leave => some (s.leave id, saved)
  | (s, saved), .assign name v => some (s.assign name v, saved)
  | (s, saved), .define name v => some (s.define name v, saved)
  | (s, saved), .defineGlobal name v => some (s.defineGlobal name v, saved)

/-- Carry out an operation on a stack. -/
def Stack.step : Stack → ScopeOp → Option Stack
  | k, .enterBlock => some (k.enter .block)
  | k, .enterCall => some (k.enter .call)
  | ⟨_, []⟩, .leave => none
  | ⟨globals, _ :: frames⟩, .leave => some ⟨globals, frames⟩
  | k, .assign name v => some (k.assign name v)
  | k, .define name v => some (k.define name v)
  | k, .defineGlobal name v => some (k.defineGlobal name v)

namespace Scopes

/-! ## How a stack is laid out in an arena -/

/-- The frame around a new one: the one that is current, or the global one. -/
def around (below : ScopeId) : FrameKind → ScopeId
  | .block => below
  | .call => global

/-- **The layout of a stack**: the frame `id` holds the top map, and `saved` are the numbers of the frames
    below it, down to the global one. -/
inductive Laid (s : Scopes) (globals : Bindings Value) :
    ScopeId → List ScopeId → List (FrameKind × Bindings Value) → Prop
  | root (h : s.frame? global = some ⟨globals, none⟩) : Laid s globals global [] []
  | frame {id below : ScopeId} {saved : List ScopeId} {kind : FrameKind} {b : Bindings Value}
    {frames : List (FrameKind × Bindings Value)}
    (h : s.frame? id = some ⟨b, some (around below kind)⟩) (hnew : id ∉ below :: saved)
    (hs : Laid s globals below saved frames) : Laid s globals id (below :: saved) ((kind, b) :: frames)

/-- **An arena refines a stack.** -/
structure Refines (s : Scopes) (saved : List ScopeId) (k : Stack) : Prop where
  sound : s.Sound
  laid : s.Laid k.globals s.current saved k.frames
  /-- No other frame is live. -/
  live : ∀ id, s.Live id → id ∈ s.current :: saved

theorem refines_initial : initial.Refines [] .initial where
  sound := wellFormed_initial.toSound
  laid := .root rfl
  live id hid := by
    have hlt : id < 1 := hid.lt_size
    rw [Nat.lt_one_iff.mp hlt]
    exact List.mem_singleton_self _

namespace Laid

variable {s s' : Scopes} {globals : Bindings Value} {id : ScopeId} {saved : List ScopeId}
  {frames : List (FrameKind × Bindings Value)}

/-- The layout depends on the frames of the stack. -/
theorem congr (h : s.Laid globals id saved frames) (hf : ∀ i ∈ id :: saved, s'.frame? i = s.frame? i) :
    s'.Laid globals id saved frames := by
  induction h with
  | root h => exact .root (by rw [hf global (List.mem_singleton_self _), h])
  | frame h hnew hs ih =>
    refine .frame ?_ hnew (ih fun i hi => hf i (List.mem_cons_of_mem _ hi))
    rw [hf _ List.mem_cons_self, h]

theorem global_mem (h : s.Laid globals id saved frames) : global ∈ id :: saved := by
  induction h with
  | root _ => exact List.mem_singleton_self _
  | frame _ _ _ ih => exact List.mem_cons_of_mem _ ih

theorem frame?_global (h : s.Laid globals id saved frames) : s.frame? global = some ⟨globals, none⟩ := by
  induction h with
  | root h => exact h
  | frame _ _ _ ih => exact ih

theorem live (h : s.Laid globals id saved frames) : ∀ i ∈ id :: saved, s.Live i := by
  induction h with
  | root h =>
    intro i hi
    rw [List.mem_singleton.mp hi, live_iff, h]
    exact nofun
  | frame h _ hs ih =>
    intro i hi
    rcases List.mem_cons.mp hi with rfl | hi
    · rw [live_iff, h]
      exact nofun
    · exact ih i hi

theorem nodup (h : s.Laid globals id saved frames) : (id :: saved).Nodup := by
  induction h with
  | root _ => exact List.nodup_singleton _
  | frame _ hnew _ ih => exact List.nodup_cons.mpr ⟨hnew, ih⟩

theorem length_saved (h : s.Laid globals id saved frames) : saved.length = frames.length := by
  induction h with
  | root _ => rfl
  | frame _ _ _ ih => rw [List.length_cons, List.length_cons, ih]

/-- Below the top frame the rest of the stack is laid out, in other frames. -/
theorem under_top {top : FrameKind × Bindings Value} {below : ScopeId}
    (h : s.Laid globals id (below :: saved) (top :: frames)) :
    id ∉ below :: saved ∧ s.Laid globals below saved frames := by
  cases h with
  | frame _ hnew hs => exact ⟨hnew, hs⟩

/-- **The view from the top frame** goes through live frames to the global one, and is that of the stack. -/
theorem view (h : s.Laid globals id saved frames) :
    ∃ ids, s.Chain id ids ∧ s.varsOf ids = Stack.viewOf globals frames := by
  have hglobal : s.vars? global = some globals := by simp [vars?, h.frame?_global]
  have hroot : s.Chain global [global] := .root (by simp [link?, h.frame?_global])
  induction h with
  | root _ => exact ⟨_, hroot, varsOf_cons hglobal []⟩
  | @frame id below saved kind b frames h _ _ ih =>
    have hb : s.vars? id = some b := by simp [vars?, h]
    have hlink : s.link? id = some (some (around below kind)) := by simp [link?, h]
    cases kind with
    | block =>
      obtain ⟨ids, hids, hvars⟩ := ih
      exact ⟨_, .cons hlink hids, by rw [varsOf_cons hb, hvars]; rfl⟩
    | call => exact ⟨_, .cons hlink hroot, by rw [varsOf_cons hb, varsOf_cons hglobal]; rfl⟩

/-- From every frame of a stack there is a chain of parents. -/
theorem chain (h : s.Laid globals id saved frames) : ∀ i ∈ id :: saved, ∃ ids, s.Chain i ids := by
  induction h with
  | root h =>
    intro i hi
    obtain ⟨ids, hids, -⟩ := (Laid.root h).view
    exact ⟨ids, List.mem_singleton.mp hi ▸ hids⟩
  | frame h hnew hs ih =>
    intro i hi
    rcases List.mem_cons.mp hi with rfl | hi
    · obtain ⟨ids, hids, -⟩ := (Laid.frame h hnew hs).view
      exact ⟨ids, hids⟩
    · exact ih i hi

/-! ### Binding -/

/-- Binding in the global frame binds in the global map. -/
theorem bindIn_global (h : s.Laid globals id saved frames) (name : String) (v : Value) :
    (s.bindIn global name v).Laid (globals.insert name v) id saved frames := by
  induction h with
  | root h => exact .root (by simp [frame?_bindIn, h])
  | @frame id below saved kind b frames h hnew hs ih =>
    -- the global frame is further down
    have hne : id ≠ global := by
      rintro rfl
      exact hnew hs.global_mem
    exact .frame (by rw [frame?_bindIn, if_neg hne, h]) hnew ih

/-- Binding in the top frame binds in the top map. -/
theorem bindIn_top (h : s.Laid globals id saved frames) (name : String) (v : Value) :
    (s.bindIn id name v).Laid ((Stack.mk globals frames).define name v).globals id saved
      ((Stack.mk globals frames).define name v).frames := by
  cases h with
  | root h => exact (Laid.root h).bindIn_global name v
  | @frame _ below saved kind b frames h hnew hs =>
    refine .frame (b := b.insert name v) (by simp [frame?_bindIn, h]) hnew (hs.congr fun i hi => ?_)
    rw [frame?_bindIn, if_neg]
    rintro rfl
    exact hnew hi

/-- **What rebinding finds**: the frame in view that is found for a name is the one whose map the stack
    rebinds. -/
theorem rebind (h : s.Laid globals id saved frames) {ids : List ScopeId} (hids : s.Chain id ids)
    (name : String) (v : Value) :
    match Stack.rebind? name v globals frames with
    | some k => ∃ j, ids.find? (fun i => (s.vars? i).any (·.contains name)) = some j ∧
        (s.bindIn j name v).Laid k.globals id saved k.frames
    | none => ids.find? (fun i => (s.vars? i).any (·.contains name)) = none := by
  have hglobal : s.vars? global = some globals := by simp [vars?, h.frame?_global]
  have hroot : s.Chain global [global] := .root (by simp [link?, h.frame?_global])
  -- what is found when only the global frame is left to look at
  have hlast : [global].find? (fun i => (s.vars? i).any (·.contains name)) =
      if globals.contains name then some global else none := by
    cases hc : globals.contains name <;> simp [hglobal, hc]
  induction h generalizing ids with
  | root h =>
    obtain rfl := hids.unique hroot
    rw [hlast]
    by_cases hc : globals.contains name
    · simp only [Stack.rebind?, hc, if_true]
      exact ⟨_, rfl, (Laid.root h).bindIn_global name v⟩
    · simp [Stack.rebind?, hc]
  | @frame id below saved kind b frames h hnew hs ih =>
    have hb : s.vars? id = some b := by simp [vars?, h]
    have hlink : s.link? id = some (some (around below kind)) := by simp [link?, h]
    by_cases hc : b.contains name
    · -- the top map binds the name
      simp only [Stack.rebind?, hc, if_true]
      refine ⟨id, ?_, (Laid.frame h hnew hs).bindIn_top name v⟩
      cases hids <;> simp [hb, hc]
    · cases kind with
      | call =>
        obtain rfl := hids.unique (.cons hlink hroot)
        rw [List.find?_cons_of_neg (by simp [hb, hc]), hlast]
        by_cases hg : globals.contains name
        · simp only [Stack.rebind?, hc, hg, if_true, Bool.false_eq_true, if_false]
          exact ⟨_, rfl, (Laid.frame h hnew hs).bindIn_global name v⟩
        · simp [Stack.rebind?, hc, hg]
      | block =>
        obtain ⟨below_ids, hbelow, -⟩ := hs.view
        obtain rfl := hids.unique (.cons hlink hbelow)
        have hrest := ih hbelow
        rw [List.find?_cons_of_neg (by simp [hb, hc])]
        cases hr : Stack.rebind? name v globals frames with
        | none => simpa [Stack.rebind?, hc, hr] using hrest
        | some k =>
          rw [hr] at hrest
          obtain ⟨j, hj, hlaid⟩ := hrest
          have hne : id ≠ j := by
            rintro rfl
            exact (List.nodup_cons.mp hids.nodup).1 (List.mem_of_find?_eq_some hj)
          simp only [Stack.rebind?, hc, hr, Bool.false_eq_true, if_false, Option.map_some]
          exact ⟨j, hj, .frame (by rw [frame?_bindIn, if_neg hne, h]) hnew hlaid⟩

end Laid

/-! ## Every operation keeps the refinement -/

namespace Refines

variable {s : Scopes} {saved : List ScopeId} {k : Stack}

theorem chain (h : s.Refines saved k) :
    ∃ ids, s.Chain s.current ids ∧ s.varsOf ids = k.view := h.laid.view

theorem wellFormed (h : s.Refines saved k) : s.WellFormed where
  toSound := h.sound
  chain id hid := h.laid.chain id (h.live id hid)

/-- A new frame gets a number that no frame of the stack has. -/
theorem enter (h : s.Refines saved k) (kind : FrameKind) :
    (s.enter (around s.current kind)).2.Refines (s.current :: saved) (k.enter kind) where
  sound := h.sound.enter _
  laid := by
    rw [current_enter]
    have hnew : s.nextId ∉ s.current :: saved := fun hm => h.sound.not_live_nextId (h.laid.live _ hm)
    refine .frame (by rw [h.sound.frame?_enter, if_pos rfl]) hnew (h.laid.congr fun i hi => ?_)
    rw [h.sound.frame?_enter, if_neg]
    rintro rfl
    exact hnew hi
  live id hid := by
    rw [current_enter]
    by_cases hn : id = s.nextId
    · exact hn ▸ List.mem_cons_self
    · unfold Live at hid
      rw [h.sound.link?_enter, if_neg hn] at hid
      exact List.mem_cons_of_mem _ (h.live id hid)

/-- Leaving the top frame for the one below it. -/
theorem leave {below : ScopeId} {globals : Bindings Value} {top : FrameKind × Bindings Value}
    {frames : List (FrameKind × Bindings Value)} (h : s.Refines (below :: saved) ⟨globals, top :: frames⟩) :
    (s.leave below).Refines saved ⟨globals, frames⟩ := by
  obtain ⟨sound, laid, live⟩ := h
  have hl : s.Live s.current := laid.live _ List.mem_cons_self
  obtain ⟨hnew, hs⟩ := laid.under_top
  have hc : s.current ≠ global := fun he => hnew (he ▸ hs.global_mem)
  refine ⟨sound.leave hc hl below, ?_, fun id hid => ?_⟩
  · rw [current_leave]
    refine hs.congr fun i hi => ?_
    rw [frame?_leave hc hl, if_neg]
    rintro rfl
    exact hnew hi
  · unfold Live at hid
    rw [link?_leave hc hl] at hid
    rw [current_leave]
    split at hid
    · exact absurd rfl hid
    · rename_i hne
      exact (List.mem_cons.mp (live id hid)).resolve_left hne

/-- Binding keeps the frames, so only the layout is left to see. -/
theorem bindIn (h : s.Refines saved k) {i : ScopeId} {name : String} {v : Value} {k' : Stack}
    (hlaid : (s.bindIn i name v).Laid k'.globals s.current saved k'.frames) :
    (s.bindIn i name v).Refines saved k' where
  sound := h.sound.bindIn i name v
  laid := by
    rw [current_bindIn]
    exact hlaid
  live id hid := by
    unfold Live at hid
    rw [link?_bindIn] at hid
    rw [current_bindIn]
    exact h.live id hid

theorem define (h : s.Refines saved k) (name : String) (v : Value) :
    (s.define name v).Refines saved (k.define name v) := h.bindIn (h.laid.bindIn_top name v)

theorem defineGlobal (h : s.Refines saved k) (name : String) (v : Value) :
    (s.defineGlobal name v).Refines saved (k.defineGlobal name v) := h.bindIn (h.laid.bindIn_global name v)

theorem assign (h : s.Refines saved k) (name : String) (v : Value) :
    (s.assign name v).Refines saved (k.assign name v) := by
  obtain ⟨ids, hids, -⟩ := h.chain
  have hfound := h.laid.rebind hids name v
  unfold Scopes.assign Stack.assign
  rw [hids.find?_eq]
  cases hr : Stack.rebind? name v k.globals k.frames with
  | none =>
    rw [hr] at hfound
    rw [hfound]
    exact h.define name v
  | some k' =>
    rw [hr] at hfound
    obtain ⟨j, hj, hlaid⟩ := hfound
    rw [hj]
    exact h.bindIn hlaid

/-- **One operation**: where it can be carried out, the results are an arena and a stack that it refines, with
    as many frames as the nesting says. -/
theorem step (h : s.Refines saved k) {op : ScopeOp} {ops : List ScopeOp}
    (hn : ScopeOp.nested saved.length (op :: ops) = true) :
    ∃ s' saved' k', Scopes.step (s, saved) op = some (s', saved') ∧ Stack.step k op = some k' ∧
      s'.Refines saved' k' ∧ ScopeOp.nested saved'.length ops = true := by
  cases op with
  | enterBlock =>
    refine ⟨_, _, _, rfl, rfl, ?_, hn⟩
    rw [enterBlock, enter_fst]
    exact h.enter .block
  | enterCall =>
    refine ⟨_, _, _, rfl, rfl, ?_, hn⟩
    rw [enterCall, enter_fst]
    exact h.enter .call
  | leave =>
    obtain ⟨globals, frames⟩ := k
    have hlen := h.laid.length_saved
    cases saved with
    | nil => exact absurd hn (by simp [ScopeOp.nested])
    | cons below saved =>
      cases frames with
      | nil => exact absurd hlen (by simp)
      | cons top frames => exact ⟨_, _, _, rfl, rfl, h.leave, hn⟩
  | assign name v => exact ⟨_, _, _, rfl, rfl, h.assign name v, by simpa [ScopeOp.nested] using hn⟩
  | define name v => exact ⟨_, _, _, rfl, rfl, h.define name v, by simpa [ScopeOp.nested] using hn⟩
  | defineGlobal name v =>
    exact ⟨_, _, _, rfl, rfl, h.defineGlobal name v, by simpa [ScopeOp.nested] using hn⟩

/-- **Every properly nested sequence** can be carried out, and ends in an arena that refines the stack. -/
theorem run (h : s.Refines saved k) {ops : List ScopeOp} (hn : ScopeOp.nested saved.length ops = true) :
    ∃ s' saved' k', ops.foldlM Scopes.step (s, saved) = some (s', saved') ∧
      ops.foldlM Stack.step k = some k' ∧ s'.Refines saved' k' := by
  induction ops generalizing s saved k with
  | nil => exact ⟨s, saved, k, rfl, rfl, h⟩
  | cons op ops ih =>
    obtain ⟨s₁, saved₁, k₁, hs, hk, hr, hn₁⟩ := h.step hn
    obtain ⟨s', saved', k', hs', hk', hr'⟩ := ih hr hn₁
    refine ⟨s', saved', k', ?_, ?_, hr'⟩
    · rw [List.foldlM_cons, hs]
      exact hs'
    · rw [List.foldlM_cons, hk]
      exact hk'

/-! ## What can be observed -/

theorem view (h : s.Refines saved k) : s.view = k.view := by
  obtain ⟨ids, hids, hvars⟩ := h.chain
  rw [hids.view_eq, hvars]

theorem get? (h : s.Refines saved k) (name : String) : s.get? name = k.get? name := by
  rw [get?_eq_view, h.view]
  rfl

theorem contains (h : s.Refines saved k) (name : String) : s.contains name = k.contains name := by
  obtain ⟨ids, hids, hvars⟩ := h.chain
  unfold Scopes.contains Stack.contains
  rw [hids.find?_eq, ← any_varsOf, hvars]

theorem live_eq (h : s.Refines saved k) : s.live = k.frames.length + 1 := by
  have hids : s.liveIds = (s.current :: saved).toFinset := by
    ext id
    rw [mem_liveIds, List.mem_toFinset]
    exact ⟨h.live id, h.laid.live id⟩
  rw [h.sound.live_eq_card, hids, List.toFinset_card_of_nodup h.laid.nodup, List.length_cons,
    h.laid.length_saved]

theorem visible (h : s.Refines saved k) (name : String) : s.visible.get? name = k.get? name := by
  rw [← h.get?, get?_visible]

end Refines

end Scopes

/-- **The arena refines a stack of maps.** Every properly nested sequence of operations can be carried out,
    starting from the arena with nothing but the global frame, and

    * afterwards the arena is well formed: the global frame is live and has no parent, the free list holds each
      dead number once, and the parents of a live frame are live, differ, and end in the global frame; `live`
      counts the live frames, one for each frame of the stack and the global one;
    * looking a name up gives what the stack gives, and the bindings in view are exactly those look-ups. -/
theorem arena_refines_stack {ops : List ScopeOp} (h : ScopeOp.nested 0 ops = true) :
    ∃ s saved k, ops.foldlM Scopes.step (.initial, []) = some (s, saved) ∧
      ops.foldlM Stack.step .initial = some k ∧
      (s.WellFormed ∧
        (∀ id ids, s.Chain id ids →
          (∀ i ∈ ids, s.Live i) ∧ ids.Nodup ∧ ids.getLast? = some Scopes.global) ∧
        s.live = s.liveIds.card ∧ s.live = k.frames.length + 1) ∧
      ∀ name, s.get? name = k.get? name ∧ s.contains name = k.contains name ∧
        ∀ v, s.visible.get? name = some v ↔ s.get? name = some v := by
  obtain ⟨s, saved, k, hs, hk, hr⟩ := Scopes.refines_initial.run h
  refine ⟨s, saved, k, hs, hk, ⟨hr.wellFormed, fun id ids hids => ?_, hr.sound.live_eq_card, hr.live_eq⟩,
    fun name => ⟨hr.get? name, hr.contains name, fun v => ?_⟩⟩
  · exact ⟨hids.live, hids.nodup, hids.getLast?_eq⟩
  · rw [hr.visible, hr.get?]

/-- A call inside a block whose frame was used before: `x` of the caller is out of view, `g` is rebound where it
    is bound, and the frame that is entered again is empty. -/
theorem arena_refines_stack_reused_frame :
    let ops : List ScopeOp :=
      [.assign "g" (.bool true), .enterBlock, .define "x" (.bool true), .leave, .enterBlock,
        .define "x" (.bool false), .enterCall, .assign "g" (.bool false)]
    ScopeOp.nested 0 ops = true ∧
      ∃ s saved k, ops.foldlM Scopes.step (.initial, []) = some (s, saved) ∧
        ops.foldlM Stack.step .initial = some k ∧ s.live = 3 ∧ s.contains "x" = false ∧
        s.contains "g" = true := by
  intro ops
  have hn : ScopeOp.nested 0 ops = true := by decide
  obtain ⟨s, saved, k, hs, hk, ⟨-, -, -, hlive⟩, hget⟩ := arena_refines_stack hn
  have hk' : ops.foldlM Stack.step .initial = some
      ⟨.insert (.insert .empty "g" (.bool true)) "g" (.bool false),
        [(.call, .empty), (.block, .insert .empty "x" (.bool false))]⟩ := rfl
  obtain rfl := Option.some.inj (hk.symm.trans hk')
  exact ⟨hn, s, saved, _, hs, hk, hlive, (hget "x").2.1, (hget "g").2.1⟩

end Helios
