import Helios.Proofs.View

/-!
# Isolation — a run depends on its view only

Frames that are out of view keep their variables (`Exec.Tidy`). Conversely a run does not see them: from
machines that are equal up to how their frames are numbered, with equal views, every task goes the same way
and ends in such machines again (`Exec.Uniform`). A call starts with a view of its own, so all it can see of
the frames is the global one (`calls_isolated`).
-/

namespace Helios

/-! ## Frames out of view -/

namespace Scopes

/-- Binding happens in view. -/
theorem Rebound.vars?_eq {s s' : Scopes} (h : s.Rebound s') {ids : List ScopeId} (hs : s.Chain s.current ids)
    {id : ScopeId} (hid : id ∉ ids) : s'.vars? id = s.vars? id := by
  have hbind : ∀ {s' : Scopes} {j : ScopeId} (name : String) (v : Value), j ∈ ids →
      s'.vars? id = s.vars? id → (s'.bindIn j name v).vars? id = s.vars? id := by
    intro s' j name v hj ih
    rw [vars?_bindIn, if_neg, ih]
    rintro rfl
    exact hid hj
  have hchain : ∀ {s' : Scopes}, s.Rebound s' → s'.Chain s'.current ids := fun h => h.sameFrames.chain hs
  induction h with
  | refl => rfl
  | @assign s' name v h ih =>
    refine hbind name v ?_ ih
    rw [(hchain h).find?_eq]
    cases hj : ids.find? fun i => (s'.vars? i).any (·.contains name) with
    | none => exact (hchain h).head_mem
    | some j => exact List.mem_of_find?_eq_some hj
  | define name v h ih => exact hbind name v (hchain h).head_mem ih
  | defineGlobal name v h ih => exact hbind name v hs.global_mem ih

/-- Leaving the frame that was entered changes no other frame. -/
theorem SameFrames.vars?_leave {s s' : Scopes} (hs : s.Sound) {parent : ScopeId}
    (h : (s.enter parent).2.SameFrames s') (saved : ScopeId) {id : ScopeId} (hid : s.Live id) :
    (s'.leave saved).vars? id = s'.vars? id := by
  obtain ⟨hc, hl, hne⟩ := h.current_of_enter hs
  rw [Scopes.vars?_leave hne hl, hc, if_neg]
  rintro rfl
  exact hs.not_live_nextId hid

/-- **Back from a block**: the frame of the block is off the view. -/
theorem SameFrames.view_leave {s s' : Scopes} (hs : s.Sound) {ids : List ScopeId} (hc : s.Chain s.current ids)
    (h : s.enterBlock.2.SameFrames s') : (s'.leave s.current).view = s'.view.tail := by
  obtain ⟨hcur, -, -⟩ := h.current_of_enter hs
  refine Chain.view_leave_parent ?_ ((hc.enter hs s.current).congr_of_mem fun i _ => h.link? i)
  rw [h.link?, hcur, enterBlock, hs.link?_enter, if_pos rfl]

end Scopes

/-- **A tidy computation**: it is balanced, and live frames out of view keep their variables. -/
structure Exec.Tidy {α : Type} (x : Exec α) : Prop where
  balanced : Balanced x
  out_of_view : ∀ m ids id, m.scopes.Sound → m.scopes.Chain m.scopes.current ids → m.scopes.Live id →
    id ∉ ids → (x m).2.scopes.vars? id = m.scopes.vars? id

namespace Exec.Tidy

variable {α β : Type}

theorem bind {x : Exec α} {f : α → Exec β} (hx : Tidy x) (hf : ∀ a, Tidy (f a)) : Tidy (x >>= f) where
  balanced := hx.balanced.bind fun a => (hf a).balanced
  out_of_view m ids id hm hc hl hid := by
    rw [bind_apply]
    have hb := hx.balanced m hm
    have hv := hx.out_of_view m ids id hm hc hl hid
    revert hb hv
    rcases x m with ⟨e | a, m'⟩ <;> rintro ⟨hs, hsame⟩ hv
    · exact hv
    · exact ((hf a).out_of_view m' ids id hs (hsame.chain hc) (hsame.live hl) hid).trans hv

/-- What happens in a frame of its own does not reach frames that are out of view there. -/
theorem enter_leave {x : Exec α} (hx : Tidy x) {m : Machine} (m₁ : Machine) {parent : ScopeId}
    {ids : List ScopeId} (hm : m.scopes.Sound) (hm₁ : m₁.scopes = (m.scopes.enter parent).2)
    (hc : m.scopes.Chain parent ids) {id : ScopeId} (hl : m.scopes.Live id) (hid : id ∉ ids) :
    ((x m₁).2.scopes.leave m.scopes.current).vars? id = m.scopes.vars? id := by
  -- the new frame takes a number that was dead, so it is not the frame in question
  have hne : id ≠ m.scopes.nextId := by
    rintro rfl
    exact hm.not_live_nextId hl
  have hs₁ : m₁.scopes.Sound := hm₁ ▸ hm.enter parent
  have hc₁ : m₁.scopes.Chain m₁.scopes.current (m.scopes.nextId :: ids) := by
    rw [hm₁, Scopes.current_enter]
    exact hc.enter_new hm
  have hl₁ : m₁.scopes.Live id := by
    unfold Scopes.Live
    rw [hm₁, hm.link?_enter, if_neg hne]
    exact hl
  have hkept := hx.out_of_view m₁ _ id hs₁ hc₁ hl₁ (List.not_mem_cons_of_ne_of_not_mem hne hid)
  obtain ⟨-, hsame⟩ := hx.balanced m₁ hs₁
  rw [hm₁] at hsame
  rw [hsame.vars?_leave hm m.scopes.current hl, hkept, hm₁, hm.vars?_enter, if_neg hne]

theorem inBlock {x : Exec α} (hx : Tidy x) : Tidy (inBlock x) where
  balanced := hx.balanced.inBlock
  out_of_view m ids id hm hc hl hid := by
    rw [inBlock_apply]
    exact hx.enter_leave m.inside hm rfl hc hl hid

/-- **A call changes no variables but its own and the global ones.** -/
theorem vars?_limited {x : Exec α} (hx : Tidy x) {m : Machine} (hm : m.scopes.Sound) {id : ScopeId}
    (hl : m.scopes.Live id) (hid : id ≠ Scopes.global) :
    (Exec.limited x m).2.scopes.vars? id = m.scopes.vars? id := by
  by_cases hd : m.maxDepth ≤ m.depth
  · rw [limited_of_le x hd]
    rfl
  · rw [limited_of_not_le x hd]
    exact hx.enter_leave m.called hm rfl (.root hm.root) hl (fun h => hid (List.mem_singleton.mp h))

theorem limited {x : Exec α} (hx : Tidy x) : Tidy (limited x) where
  balanced := hx.balanced.limited
  out_of_view m ids id hm hc hl hid := by
    refine hx.vars?_limited hm hl ?_
    rintro rfl
    exact hid hc.global_mem

theorem compositional : Compositional fun x _ => Tidy x where
  give r := ⟨Balanced.compositional.give r, fun _ _ _ _ _ _ _ => by cases r <;> rfl⟩
  prim p := ⟨Balanced.compositional.prim p, fun m _ _ _ hc _ hid =>
    (Prim.Footprint.exec p m).scopes.vars?_eq hc hid⟩
  bind := bind
  atLine line x _ h := ⟨Balanced.compositional.atLine line (y := x) h.balanced,
    fun m ids id hm hc hl hid => by rw [atLine_snd]; exact h.out_of_view m ids id hm hc hl hid⟩
  inBlock := inBlock
  inCall := limited

theorem exhausted : Tidy (exhausted : Exec α) :=
  ⟨fun m hm => ⟨hm, .refl m.scopes⟩, fun _ _ _ _ _ _ _ => rfl⟩

end Exec.Tidy

/-! ## Equal views -/

/-- **Arenas that look alike** from their current frames, however their frames are numbered. -/
structure Scopes.Alike (s₁ s₂ : Scopes) : Prop where
  sound₁ : s₁.Sound
  sound₂ : s₂.Sound
  chain₁ : ∃ ids, s₁.Chain s₁.current ids
  chain₂ : ∃ ids, s₂.Chain s₂.current ids
  view : s₁.view = s₂.view

namespace Scopes.Alike

variable {s₁ s₂ : Scopes}

theorem globals (h : Alike s₁ s₂) : s₁.vars? global = s₂.vars? global := by
  obtain ⟨ids₁, h₁⟩ := h.chain₁
  obtain ⟨ids₂, h₂⟩ := h.chain₂
  exact h₁.vars?_global_eq h₂ (by rw [← h₁.view_eq, ← h₂.view_eq]; exact h.view)

/-- What binds one name, and changes the view in one way wherever it is done, keeps arenas alike. -/
theorem bind (h : Alike s₁ s₂) {f : Scopes → Scopes} {g : List (Bindings Value) → List (Bindings Value)}
    (hf : ∀ s, ∃ id name v, f s = s.bindIn id name v)
    (hview : ∀ {s : Scopes} {ids}, s.Chain s.current ids → (f s).view = g s.view) : Alike (f s₁) (f s₂) := by
  have hkeeps : ∀ {s : Scopes}, s.Sound → (f s).Sound ∧ s.SameFrames (f s) := by
    intro s hs
    obtain ⟨id, name, v, heq⟩ := hf s
    rw [heq]
    exact ⟨hs.bindIn id name v, .bindIn s id name v⟩
  obtain ⟨ids₁, h₁⟩ := h.chain₁
  obtain ⟨ids₂, h₂⟩ := h.chain₂
  obtain ⟨hs₁, hsame₁⟩ := hkeeps h.sound₁
  obtain ⟨hs₂, hsame₂⟩ := hkeeps h.sound₂
  exact ⟨hs₁, hs₂, ⟨ids₁, hsame₁.chain h₁⟩, ⟨ids₂, hsame₂.chain h₂⟩, by rw [hview h₁, hview h₂, h.view]⟩

theorem assign (h : Alike s₁ s₂) (name : String) (v : Value) :
    Alike (s₁.assign name v) (s₂.assign name v) :=
  h.bind (f := (·.assign name v)) (fun _ => ⟨_, _, _, rfl⟩) fun hc => hc.view_assign name v

theorem define (h : Alike s₁ s₂) (name : String) (v : Value) :
    Alike (s₁.define name v) (s₂.define name v) :=
  h.bind (f := (·.define name v)) (fun _ => ⟨_, _, _, rfl⟩) fun hc => hc.view_define name v

theorem defineGlobal (h : Alike s₁ s₂) (name : String) (v : Value) :
    Alike (s₁.defineGlobal name v) (s₂.defineGlobal name v) :=
  h.bind (f := (·.defineGlobal name v)) (fun _ => ⟨_, _, _, rfl⟩) fun hc => hc.view_defineGlobal name v

theorem foldl {α : Type} {f : Scopes → α → Scopes}
    (hf : ∀ {s₁ s₂}, Alike s₁ s₂ → ∀ a, Alike (f s₁ a) (f s₂ a)) (as : List α) (h : Alike s₁ s₂) :
    Alike (as.foldl f s₁) (as.foldl f s₂) := by
  induction as generalizing s₁ s₂ with
  | nil => exact h
  | cons a as ih => exact ih (hf h a)

theorem merge (h : Alike s₁ s₂) (d : NamespaceDiff) : Alike (Exec.merge s₁ d) (Exec.merge s₂ d) := by
  unfold Exec.merge
  refine foldl (fun h e => h.assign e.1 e.2) d.changed ?_
  exact foldl (fun h e => h.defineGlobal e.1 e.2) d.added h

/-- New frames look alike when the frames around them do. -/
theorem enter (h₁ : s₁.Sound) (h₂ : s₂.Sound) {parent₁ parent₂ : ScopeId} {ids₁ ids₂ : List ScopeId}
    (hc₁ : s₁.Chain parent₁ ids₁) (hc₂ : s₂.Chain parent₂ ids₂) (hview : s₁.varsOf ids₁ = s₂.varsOf ids₂) :
    Alike (s₁.enter parent₁).2 (s₂.enter parent₂).2 where
  sound₁ := h₁.enter parent₁
  sound₂ := h₂.enter parent₂
  chain₁ := ⟨_, by rw [current_enter]; exact hc₁.enter_new h₁⟩
  chain₂ := ⟨_, by rw [current_enter]; exact hc₂.enter_new h₂⟩
  view := by rw [hc₁.view_enter h₁, hc₂.view_enter h₂, hview]

theorem enterBlock (h : Alike s₁ s₂) : Alike s₁.enterBlock.2 s₂.enterBlock.2 := by
  obtain ⟨ids₁, h₁⟩ := h.chain₁
  obtain ⟨ids₂, h₂⟩ := h.chain₂
  refine enter h.sound₁ h.sound₂ h₁ h₂ ?_
  rw [← h₁.view_eq, ← h₂.view_eq, h.view]

/-- **The frame of a call**: to look alike there it is enough to have the same global variables. -/
theorem enterCall (h₁ : s₁.Sound) (h₂ : s₂.Sound) (h : s₁.vars? global = s₂.vars? global) :
    Alike s₁.enterCall.2 s₂.enterCall.2 := by
  refine enter h₁ h₂ (.root h₁.root) (.root h₂.root) ?_
  unfold varsOf
  rw [List.filterMap_cons, List.filterMap_cons, h]
  rfl

/-- Back from blocks that look alike at their ends. -/
theorem leaveBlock (h : Alike s₁ s₂) {t₁ t₂ : Scopes} (h₁ : s₁.enterBlock.2.SameFrames t₁)
    (h₂ : s₂.enterBlock.2.SameFrames t₂) (ht : Alike t₁ t₂) :
    Alike (t₁.leave s₁.current) (t₂.leave s₂.current) := by
  obtain ⟨hs₁, hsame₁⟩ := Exec.Balanced.leave h.sound₁ s₁.current ht.sound₁ h₁
  obtain ⟨hs₂, hsame₂⟩ := Exec.Balanced.leave h.sound₂ s₂.current ht.sound₂ h₂
  obtain ⟨ids₁, hc₁⟩ := h.chain₁
  obtain ⟨ids₂, hc₂⟩ := h.chain₂
  refine ⟨hs₁, hs₂, ⟨ids₁, hsame₁.chain hc₁⟩, ⟨ids₂, hsame₂.chain hc₂⟩, ?_⟩
  rw [h₁.view_leave h.sound₁ hc₁, h₂.view_leave h.sound₂ hc₂, ht.view]

/-- Back from calls that made the same global variables. -/
theorem leaveCall (h : Alike s₁ s₂) {t₁ t₂ : Scopes} (hs₁ : t₁.Sound) (hs₂ : t₂.Sound)
    (hsame₁ : s₁.SameFrames t₁) (hsame₂ : s₂.SameFrames t₂)
    (hkept₁ : ∀ id, s₁.Live id → id ≠ global → t₁.vars? id = s₁.vars? id)
    (hkept₂ : ∀ id, s₂.Live id → id ≠ global → t₂.vars? id = s₂.vars? id)
    (hglobals : t₁.vars? global = t₂.vars? global) : Alike t₁ t₂ := by
  obtain ⟨ids₁, h₁⟩ := h.chain₁
  obtain ⟨ids₂, h₂⟩ := h.chain₂
  refine ⟨hs₁, hs₂, ⟨ids₁, hsame₁.chain h₁⟩, ⟨ids₂, hsame₂.chain h₂⟩, ?_⟩
  obtain ⟨b, hb⟩ := hs₁.live_global.vars?
  calc t₁.view = t₁.varsOf ids₁ := (hsame₁.chain h₁).view_eq
    _ = View.setBottom b (s₁.varsOf ids₁) := h₁.varsOf_setBottom (fun i hi => hkept₁ i (h₁.live i hi)) hb
    _ = View.setBottom b (s₂.varsOf ids₂) := by rw [← h₁.view_eq, ← h₂.view_eq, h.view]
    _ = t₂.varsOf ids₂ :=
      (h₂.varsOf_setBottom (fun i hi => hkept₂ i (h₂.live i hi)) (hglobals ▸ hb)).symm
    _ = t₂.view := (hsame₂.chain h₂).view_eq.symm

end Scopes.Alike

/-! ## Uniform computations -/

/-- Other frames in the place of those there are. -/
def Machine.withScopes (m : Machine) (s : Scopes) : Machine := { m with scopes := s }

/-- **Machines that differ in how their frames are numbered**, and in frames out of view. -/
structure Machine.Twin (m₁ m₂ : Machine) : Prop where
  scopes : m₁.scopes.Alike m₂.scopes
  rest : m₂ = m₁.withScopes m₂.scopes

/-- **A uniform computation** goes the same way from machines that differ only so, and ends in such
    machines. -/
structure Exec.Uniform {α : Type} (x : Exec α) : Prop extends Tidy x where
  twin : ∀ m₁ m₂, m₁.Twin m₂ → (x m₁).1 = (x m₂).1 ∧ (x m₁).2.Twin (x m₂).2

namespace Exec.Apart

variable {α : Type} {x : Exec α}

theorem scopes_eq (h : Apart x) (m : Machine) : (x m).2.scopes = m.scopes := by
  rw [h.snd_eq m]
  rfl

theorem withScopes (h : Apart x) (m : Machine) (s : Scopes) :
    x (m.withScopes s) = ((x m).1, (x m).2.withScopes s) := by
  have hcore : x (m.withScopes s) = _ := h m s m.registry m.depth m.maxDepth
  rw [hcore, h.snd_eq m]
  rfl

end Exec.Apart

namespace Exec.Uniform

variable {α β : Type}

/-- The second machine is the first one with other frames. -/
theorem of_scopes {x : Exec α} (hx : Tidy x)
    (h : ∀ m s, m.scopes.Alike s →
      (x m).1 = (x (m.withScopes s)).1 ∧ (x m).2.Twin (x (m.withScopes s)).2) : Uniform x where
  toTidy := hx
  twin m₁ m₂ ht := by
    rw [ht.rest]
    exact h m₁ m₂.scopes ht.scopes

theorem of_apart {x : Exec α} (hx : Tidy x) (h : Apart x) : Uniform x := by
  refine of_scopes hx fun m s hs => ?_
  rw [h.withScopes]
  refine ⟨rfl, ?_, rfl⟩
  rw [h.scopes_eq]
  exact hs

theorem bind {x : Exec α} {f : α → Exec β} (hx : Uniform x) (hf : ∀ a, Uniform (f a)) :
    Uniform (x >>= f) where
  toTidy := hx.toTidy.bind fun a => (hf a).toTidy
  twin m₁ m₂ ht := by
    rw [bind_apply, bind_apply]
    have h := hx.twin m₁ m₂ ht
    revert h
    rcases x m₁ with ⟨e | a, m₁'⟩ <;> rcases x m₂ with ⟨e' | a', m₂'⟩ <;> rintro ⟨hr, ht'⟩
    · exact ⟨congrArg Except.error (Except.error.inj hr), ht'⟩
    · exact nomatch hr
    · exact nomatch hr
    · rw [← Except.ok.inj hr]
      exact (hf a).twin m₁' m₂' ht'

theorem atLine (line : Nat) {x : Exec α} (hx : Uniform x) : Uniform (atLine line x) where
  toTidy := Tidy.compositional.atLine line (y := x) hx.toTidy
  twin m₁ m₂ ht := by
    obtain ⟨hr, ht'⟩ := hx.twin m₁ m₂ ht
    rw [atLine_fst, atLine_fst, hr, atLine_snd, atLine_snd]
    exact ⟨rfl, ht'⟩

theorem inBlock {x : Exec α} (hx : Uniform x) : Uniform (inBlock x) := by
  refine of_scopes hx.toTidy.inBlock fun m s hs => ?_
  obtain ⟨hr, ht⟩ := hx.twin m.inside (m.withScopes s).inside ⟨hs.enterBlock, rfl⟩
  rw [inBlock_apply, inBlock_apply]
  refine ⟨hr, ?_, ?_⟩
  · have h₁ := (hx.balanced m.inside (hs.sound₁.enter _)).2
    have h₂ := (hx.balanced (m.withScopes s).inside (hs.sound₂.enter _)).2
    exact hs.leaveBlock h₁ h₂ ht.scopes
  · rw [ht.rest]
    rfl

/-- **A call goes the same way wherever it is made**, if the global variables are the same. -/
theorem limited_eq {x : Exec α} (hx : Uniform x) {m : Machine} {s : Scopes} (hm : m.scopes.Sound)
    (hs : s.Sound) (hglobals : m.scopes.vars? Scopes.global = s.vars? Scopes.global) :
    (limited x m).1 = (limited x (m.withScopes s)).1 ∧
    (limited x (m.withScopes s)).2 =
      (limited x m).2.withScopes (limited x (m.withScopes s)).2.scopes ∧
    (limited x m).2.scopes.vars? Scopes.global =
      (limited x (m.withScopes s)).2.scopes.vars? Scopes.global := by
  by_cases hd : m.maxDepth ≤ m.depth
  · rw [limited_of_le x hd, limited_of_le x (m := m.withScopes s) hd]
    exact ⟨rfl, rfl, hglobals⟩
  · rw [limited_of_not_le x hd, limited_of_not_le x (m := m.withScopes s) hd]
    obtain ⟨hr, ht⟩ := hx.twin m.called (m.withScopes s).called ⟨.enterCall hm hs hglobals, rfl⟩
    refine ⟨hr, ?_, ?_⟩
    · rw [ht.rest]
      rfl
    · -- the global frame is not the one that is left
      have hsame₁ := (hx.balanced m.called (hm.enter Scopes.global)).2
      have hsame₂ := (hx.balanced (m.withScopes s).called (hs.enter Scopes.global)).2
      have hback₁ := hsame₁.vars?_leave hm m.scopes.current hm.live_global
      have hback₂ := hsame₂.vars?_leave hs s.current hs.live_global
      exact hback₁.trans (ht.scopes.globals.trans hback₂.symm)

theorem limited {x : Exec α} (hx : Uniform x) : Uniform (limited x) := by
  refine of_scopes hx.toTidy.limited fun m s hs => ?_
  obtain ⟨hr, hrest, hglobals⟩ := hx.limited_eq hs.sound₁ hs.sound₂ hs.globals
  obtain ⟨hs₁, hsame₁⟩ := hx.balanced.limited m hs.sound₁
  obtain ⟨hs₂, hsame₂⟩ := hx.balanced.limited (m.withScopes s) hs.sound₂
  refine ⟨hr, hs.leaveCall hs₁ hs₂ hsame₁ hsame₂ ?_ ?_ hglobals, hrest⟩
  · exact fun id hl hid => hx.toTidy.vars?_limited hs.sound₁ hl hid
  · exact fun id hl hid => hx.toTidy.vars?_limited (m := m.withScopes s) hs.sound₂ hl hid

theorem passthrough (language code : String) : Uniform (Prim.passthrough language code).exec := by
  refine of_scopes (Tidy.compositional.prim _) fun m s hs => ?_
  have hvisible : s.visible = m.scopes.visible := by
    rw [Scopes.visible_eq_view, Scopes.visible_eq_view, hs.view]
  -- the engine is asked the same
  have hrequest : (m.withScopes s).request code = m.request code := by
    unfold Machine.request
    rw [show (m.withScopes s).scopes.visible = m.scopes.visible from hvisible]
    rfl
  dsimp only [Prim.exec, Exec.passthrough]
  rw [hrequest]
  dsimp only [Machine.withScopes]
  rw [hvisible]
  cases Engine.executeIn language (m.request code) m.engines with
  | missing | broken => exact ⟨rfl, hs, rfl⟩
  | ran run engines =>
    dsimp only
    cases run.outcome.error <;> exact ⟨rfl, hs.merge _, rfl⟩

theorem contain (path : String) : Uniform (Prim.contain path).exec := by
  refine of_scopes (Tidy.compositional.prim _) fun m s hs => ?_
  dsimp only [Prim.exec, Exec.contain, Machine.withScopes]
  rcases Resolver.resolveFirst m.resolvers path m.hosts with ⟨_ | ref, resolvers, hosts⟩
  · exact ⟨rfl, hs, rfl⟩
  · exact ⟨rfl, hs.defineGlobal _ _, rfl⟩

/-- A question about the variables in view and the functions. -/
theorem of_reads {x : Exec α} (hx : Tidy x) {f : Machine → Except Cause α}
    (hf : ∀ m, x m = ofExcept (f m) m)
    (h : ∀ (m : Machine) (s : Scopes), m.scopes.view = s.view → f (m.withScopes s) = f m) : Uniform x := by
  refine of_scopes hx fun m s hs => ?_
  rw [hf, hf, h m s hs.view]
  cases f m <;> exact ⟨rfl, hs, rfl⟩

theorem prim (p : Prim α) : Uniform p.exec := by
  have hp : Tidy p.exec := Tidy.compositional.prim p
  cases p with
  | lookup name =>
    refine of_reads hp (f := fun m => (m.resolveName? name).elim (.error (.name name)) .ok) (fun m => ?_) ?_
    · rw [Prim.exec_lookup]
      cases m.resolveName? name <;> rfl
    · intro m s hs
      unfold Machine.resolveName?
      rw [Scopes.get?_eq_view, Scopes.get?_eq_view, hs]
      rfl
  | target name =>
    refine of_reads hp (f := fun m => m.callTarget name) (fun _ => rfl) fun m s hs => ?_
    dsimp only [Machine.callTarget, Machine.withScopes]
    rw [Scopes.get?_eq_view, Scopes.get?_eq_view, hs]
  | entry name =>
    refine of_reads hp (f := fun m => (m.registry.get? name).elim (.error (.name name)) .ok) (fun m => ?_)
      fun _ _ _ => rfl
    dsimp only [Prim.exec]
    cases m.registry.get? name <;> rfl
  | registered name => exact of_scopes hp fun m s hs => ⟨rfl, hs, rfl⟩
  | assign name v => exact of_scopes hp fun m s hs => ⟨rfl, hs.assign name v, rfl⟩
  | define name v => exact of_scopes hp fun m s hs => ⟨rfl, hs.define name v, rfl⟩
  | defineUser name params body => exact of_scopes hp fun m s hs => ⟨rfl, hs, rfl⟩
  | writeLine line => exact of_apart hp (.writeLine line)
  | glance => exact of_apart hp .glance
  | host what args => exact of_apart hp (.host what args)
  | callMember ref member args => exact of_apart hp (.callMember ref member args)
  | contain path => exact contain path
  | passthrough language code => exact passthrough language code
  | dispatch c => exact of_apart hp (.dispatch c)

theorem compositional : Compositional fun x _ => Uniform x where
  give r := of_apart (Tidy.compositional.give r) (.ofExcept r)
  prim := prim
  bind := bind
  atLine line _ _ h := atLine line h
  inBlock := inBlock
  inCall := limited

/-- **Every run is uniform.** -/
theorem run (n : Nat) (t : Task α) : Uniform (t.run n) :=
  compositional.run ⟨.exhausted, fun _ _ ht => ⟨rfl, ht⟩⟩ n t

theorem plan (n : Nat) (p : Plan α) : Uniform (p.exec fun _ => Task.run n) :=
  compositional.plan (g := fun _ => Task.run n) (fun t => run n t) p

end Exec.Uniform

/-! ## Calls -/

/-- **Machines that agree on everything but the frames inside the global one**: how many there are, what they
    bind, how they are numbered, which is current and which numbers are free. -/
structure Machine.Agrees (m₁ m₂ : Machine) : Prop where
  globals : m₁.scopes.vars? Scopes.global = m₂.scopes.vars? Scopes.global
  rest : m₂ = m₁.withScopes m₂.scopes

/-- A computation that sees and changes no frame but the global one. -/
def Exec.Detached {α : Type} (x : Exec α) : Prop :=
  ∀ m₁ m₂, m₁.scopes.Sound → m₂.scopes.Sound → m₁.Agrees m₂ →
    (x m₁).1 = (x m₂).1 ∧ (x m₁).2.Agrees (x m₂).2 ∧ (x m₁).2.scopes.Sound ∧ (x m₂).2.scopes.Sound

namespace Exec.Detached

variable {α β : Type}

theorem bind {x : Exec α} {f : α → Exec β} (hx : Detached x) (hf : ∀ a, Detached (f a)) :
    Detached (x >>= f) := by
  intro m₁ m₂ h₁ h₂ ha
  rw [bind_apply, bind_apply]
  have h := hx m₁ m₂ h₁ h₂ ha
  revert h
  rcases x m₁ with ⟨e | a, m₁'⟩ <;> rcases x m₂ with ⟨e' | a', m₂'⟩ <;> rintro ⟨hr, ha', hs₁, hs₂⟩
  · exact ⟨congrArg Except.error (Except.error.inj hr), ha', hs₁, hs₂⟩
  · exact nomatch hr
  · exact nomatch hr
  · rw [← Except.ok.inj hr]
    exact hf a m₁' m₂' hs₁ hs₂ ha'

theorem of_apart {x : Exec α} (h : Apart x) : Detached x := by
  intro m₁ m₂ h₁ h₂ ha
  rw [ha.rest, h.withScopes]
  refine ⟨rfl, ⟨?_, rfl⟩, ?_, h₂⟩
  · rw [h.scopes_eq]
    exact ha.globals
  · rw [h.scopes_eq]
    exact h₁

theorem limited {x : Exec α} (hx : Uniform x) : Detached (limited x) := by
  intro m₁ m₂ h₁ h₂ ha
  have hs₁ := (hx.balanced.limited m₁ h₁).1
  have hs₂ := (hx.balanced.limited m₂ h₂).1
  have h := hx.limited_eq h₁ h₂ ha.globals
  rw [← ha.rest] at h
  obtain ⟨hr, hrest, hglobals⟩ := h
  exact ⟨hr, ⟨hglobals, hrest⟩, hs₁, hs₂⟩

theorem entry (name : String) : Detached (Prim.entry name).exec := by
  intro m₁ m₂ h₁ h₂ ha
  have hreg : m₂.registry = m₁.registry := by rw [ha.rest]; rfl
  dsimp only [Prim.exec]
  rw [hreg]
  cases m₁.registry.get? name <;> exact ⟨rfl, ha, h₁, h₂⟩

/-- A call looks its function up, checks the arguments, and runs a body in a frame of its own. -/
theorem callFunction (n : Nat) (name : String) (args : List Value) : Detached (callFunction n name args) := by
  cases n with
  | zero => exact fun _ _ h₁ h₂ ha => ⟨rfl, ha, h₁, h₂⟩
  | succ n =>
    rw [Task.run_callFunction_succ]
    refine (entry name).bind fun e => (of_apart (.ofExcept _)).bind fun _ => ?_
    cases e with
    | builtin arity body =>
      cases body with
      | pure body => exact of_apart (.ofExcept (body args))
      | timed body => exact of_apart (.bind .glance fun r => .ofExcept (body r.wall args))
      | host what => exact of_apart (.host what args)
    | user params body =>
      refine (limited (Uniform.plan n ?_)).bind fun signal => ?_
      exact of_apart (.pure _)

end Exec.Detached

/-- **Calls are isolated**: whether a call finishes, what it gives and what it does to the machine depend on
    the global variables but on no other frame, nor on which one is current or how frames are numbered. -/
theorem calls_isolated (m₁ m₂ : Machine) (h₁ : m₁.scopes.WellFormed) (h₂ : m₂.scopes.WellFormed)
    (h : m₁.Agrees m₂) (name : String) (args : List Value) :
    (∀ fuel, (Exec.callFunction fuel name args m₁).1 = (Exec.callFunction fuel name args m₂).1 ∧
      (Exec.callFunction fuel name args m₁).2.Agrees (Exec.callFunction fuel name args m₂).2) ∧
    ((Task.callFunction name args).Finishes m₁ ↔ (Task.callFunction name args).Finishes m₂) ∧
    ∀ fuel₁ fuel₂, (Exec.callFunction fuel₁ name args m₁).1 ≠ .error .outOfFuel →
      (Exec.callFunction fuel₂ name args m₂).1 ≠ .error .outOfFuel →
      (Exec.callFunction fuel₁ name args m₁).1 = (Exec.callFunction fuel₂ name args m₂).1 ∧
        (Exec.callFunction fuel₁ name args m₁).2.Agrees (Exec.callFunction fuel₂ name args m₂).2 := by
  have hlock : ∀ fuel, (Exec.callFunction fuel name args m₁).1 = (Exec.callFunction fuel name args m₂).1 ∧
      (Exec.callFunction fuel name args m₁).2.Agrees (Exec.callFunction fuel name args m₂).2 := by
    intro fuel
    obtain ⟨hr, ha, -, -⟩ := Exec.Detached.callFunction fuel name args m₁ m₂ h₁.toSound h₂.toSound h
    exact ⟨hr, ha⟩
  refine ⟨hlock, ⟨?_, ?_⟩, ?_⟩
  · rintro ⟨fuel, hf⟩
    exact ⟨fuel, fun he => hf ((hlock fuel).1.trans he)⟩
  · rintro ⟨fuel, hf⟩
    exact ⟨fuel, fun he => hf ((hlock fuel).1.symm.trans he)⟩
  · intro fuel₁ fuel₂ hf₁ hf₂
    have hf : (Exec.callFunction fuel₂ name args m₁).1 ≠ .error .outOfFuel :=
      fun he => hf₂ ((hlock fuel₂).1.symm.trans he)
    -- both machines with the fuel of the second
    have heq : Exec.callFunction fuel₁ name args m₁ = Exec.callFunction fuel₂ name args m₁ :=
      Task.run_eq (t := .callFunction name args) hf₁ hf
    rw [heq]
    exact hlock fuel₂

/-- A machine with a function that reads a variable it does not bind. -/
def Machine.peeking : Machine :=
  { Machine.initial .still with
    registry := Registry.defineUser .empty "peek" [] [⟨1, .return_ (some (.var "secret"))⟩] }

/-- A call from a frame that binds the variable, and one from the global frame. -/
theorem calls_isolated_from_locals :
    (Machine.peeking.inside.scopes.define "secret" (.int 5)).get? "secret" = some (.int 5) ∧
    Machine.peeking.scopes.get? "secret" = none ∧
    (Exec.callFunction 9 "peek" [] Machine.peeking).1 =
      (Exec.callFunction 9 "peek" []
        (Machine.peeking.withScopes (Machine.peeking.inside.scopes.define "secret" (.int 5)))).1 := by
  have hinside : Machine.peeking.inside.scopes.WellFormed :=
    Scopes.wellFormed_initial.enter Scopes.wellFormed_initial.live_global
  have hlocal : (Machine.peeking.inside.scopes.define "secret" (.int 5)).WellFormed :=
    hinside.congr (hinside.toSound.bindIn ..) fun id => Scopes.link?_bindIn _ _ _ _ id
  refine ⟨rfl, rfl, ?_⟩
  have hagrees : Machine.peeking.Agrees
      (Machine.peeking.withScopes (Machine.peeking.inside.scopes.define "secret" (.int 5))) := ⟨rfl, rfl⟩
  exact ((calls_isolated _ _ Scopes.wellFormed_initial hlocal hagrees "peek" []).1 9).1

end Helios
