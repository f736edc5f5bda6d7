import Helios.Proofs.Locals
import Helios.Proofs.Merge

/-!
# Leaks — loops do not leak names

Every round of a loop runs in a frame of its own. A name that the body assigns is rebound where it is bound in view,
and otherwise bound in that frame, which is gone at the end of the round; so of the frames outside, none binds more
names than before, or fewer (`Exec.Sealed.names_inBlock`, `Task.bindsNoLocals`). The variable of a `for` loop is bound
in the frame of the round, where each look-up from inside stops: what is outside of it is `Scopes.Shielded`.

The global frame can gain names: functions that are called import what they like. Whatever name it gains is that of an
import, or one that a block of another language handed back, and the trace of the run comes to the statement
(`Task.introduces_of_gains`).
-/

namespace Helios

/-! ## Which frame binds which name -/

namespace Scopes

/-- **A frame binds a name.** -/
def Binds (s : Scopes) (id : ScopeId) (name : String) : Prop := (s.binding? id name).isSome = true

variable {s s' : Scopes} {id : ScopeId} {name : String}

theorem binding?_congr (h : s'.vars? id = s.vars? id) (name : String) :
    s'.binding? id name = s.binding? id name := by
  unfold binding?
  rw [h]

theorem binds_congr (h : s'.binding? id name = s.binding? id name) : s'.Binds id name ↔ s.Binds id name := by
  unfold Binds
  rw [h]

theorem Binds.frame? (h : s.Binds id name) : ∃ f, s.frame? id = some f ∧ f.vars.contains name = true := by
  unfold Binds binding? vars? at h
  cases hframe : s.frame? id with
  | none =>
    rw [hframe] at h
    nomatch h
  | some f =>
    rw [hframe] at h
    exact ⟨f, rfl, h⟩

theorem Binds.live (h : s.Binds id name) : s.Live id := by
  obtain ⟨f, hframe, -⟩ := h.frame?
  rw [live_iff, hframe]
  nofun

/-- The frame that is found binds the name. -/
theorem binds_of_find? (h : s.find? name = some id) : s.Binds id name := by
  obtain ⟨b, hb, hcontains⟩ := vars?_of_find? h
  unfold Binds binding?
  rw [hb]
  exact hcontains

theorem bindIn_of_not_live {i : ScopeId} (hi : ¬ s.Live i) (n : String) (v : Value) : s.bindIn i n v = s := by
  have hdead : s.frame? i = none := by
    by_contra hframe
    exact hi (live_iff.mpr hframe)
  unfold bindIn
  rw [hdead]

theorem binding?_bindIn_of_ne {i : ScopeId} {n : String} (h : ¬ (id = i ∧ n = name)) (v : Value) :
    (s.bindIn i n v).binding? id name = s.binding? id name := by
  by_cases hi : s.Live i
  · rw [binding?_bindIn hi, if_neg h]
  · rw [bindIn_of_not_live hi]

theorem Binds.bindIn (h : s.Binds id name) (i : ScopeId) (n : String) (v : Value) :
    (s.bindIn i n v).Binds id name := by
  by_cases hi : s.Live i
  · unfold Binds
    rw [binding?_bindIn hi]
    split
    · rfl
    · exact h
  · rw [bindIn_of_not_live hi]
    exact h

theorem binds_of_bindIn {i : ScopeId} {n : String} {v : Value} (h : (s.bindIn i n v).Binds id name) :
    s.Binds id name ∨ (id = i ∧ n = name) := by
  by_cases hhere : id = i ∧ n = name
  · exact .inr hhere
  · exact .inl ((binds_congr (binding?_bindIn_of_ne hhere v)).mp h)

/-- **Assignment binds no name but in the current frame.** -/
theorem binds_of_assign {n : String} {v : Value} (h : (s.assign n v).Binds id name) :
    s.Binds id name ∨ id = s.current := by
  rcases binds_of_bindIn h with hbinds | ⟨rfl, rfl⟩
  · exact .inl hbinds
  · cases hfind : s.find? n with
    | none => exact .inr rfl
    | some i => exact .inl (binds_of_find? hfind)

/-! ### Questions -/

/-- No name is ever unbound. -/
theorem Rebound.binds (h : s.Rebound s') (hb : s.Binds id name) : s'.Binds id name := by
  induction h with
  | refl => exact hb
  | assign n v _ ih => exact ih.bindIn ..
  | define n v _ ih => exact ih.bindIn ..
  | defineGlobal n v _ ih => exact ih.bindIn ..

/-- Frames that are neither global nor current bind no more names. -/
theorem Rebound.binds_of (h : s.Rebound s') (hid : id ≠ global) (hcurrent : id ≠ s.current)
    (hb : s'.Binds id name) : s.Binds id name := by
  induction h with
  | refl => exact hb
  | @assign s₁ n v h₁ ih =>
    rcases binds_of_assign hb with hb | heq
    · exact ih hb
    · exact absurd (heq.trans h₁.sameFrames.current) hcurrent
  | @define s₁ n v h₁ ih =>
    rcases binds_of_bindIn hb with hb | ⟨heq, -⟩
    · exact ih hb
    · exact absurd (heq.trans h₁.sameFrames.current) hcurrent
  | defineGlobal n v _ ih =>
    rcases binds_of_bindIn hb with hb | ⟨heq, -⟩
    · exact ih hb
    · exact absurd heq hid

/-! ### Shields -/

/-- A walk outward starts in its first frame and goes on in the parent of that. -/
theorem chainFrom_succ {i : ScopeId} {f : Frame} (hf : s.frame? i = some f) (fuel : Nat) :
    ∃ rest, s.chainFrom (fuel + 1) i = (i, f) :: rest ∧
      ∀ parent, f.parent = some parent → rest = s.chainFrom fuel parent := by
  rw [chainFrom, hf]
  dsimp only
  cases f.parent with
  | none =>
    refine ⟨[], rfl, fun parent hparent => ?_⟩
    cases hparent
  | some parent => exact ⟨_, rfl, fun _ heq => Option.some.inj heq ▸ rfl⟩

/-- **A frame is shielded from assignments of a name** that are made in `i`: walking outward from `i` one comes to a
    frame that binds the name before one comes to it. -/
inductive Shielded (s : Scopes) (name : String) (id : ScopeId) : ScopeId → Prop
  | bound {i : ScopeId} (hne : i ≠ id) (h : s.Binds i name) : Shielded s name id i
  | around {i parent : ScopeId} (hne : i ≠ id) (hlink : s.link? i = some (some parent))
    (h : Shielded s name id parent) : Shielded s name id i

namespace Shielded

variable {i : ScopeId}

theorem ne (h : Shielded s name id i) : i ≠ id := by
  cases h with
  | bound hne _ => exact hne
  | around hne _ _ => exact hne

/-- Where the frames stay and none unbinds the name, the shield stays. -/
theorem congr (h : Shielded s name id i) (hlink : ∀ j, s.Live j → s'.link? j = s.link? j)
    (hbinds : ∀ j, s.Binds j name → s'.Binds j name) : Shielded s' name id i := by
  induction h with
  | bound hne hb => exact .bound hne (hbinds _ hb)
  | @around j parent hne hj _ ih =>
    refine .around hne ?_ ih
    rw [hlink j (by unfold Live; rw [hj]; nofun)]
    exact hj

theorem find?_chainFrom (h : Shielded s name id i) (fuel : Nat) {p : ScopeId × Frame}
    (hp : (s.chainFrom fuel i).find? (fun p => p.2.vars.contains name) = some p) : p.1 ≠ id := by
  induction h generalizing fuel with
  | @bound i hne hb =>
    cases fuel with
    | zero => nomatch hp
    | succ fuel =>
      -- the walk ends where it starts
      obtain ⟨f, hframe, hcontains⟩ := hb.frame?
      obtain ⟨rest, hrest, -⟩ := chainFrom_succ hframe fuel
      rw [hrest, List.find?_cons, hcontains] at hp
      cases hp
      exact hne
  | @around i parent hne hlink _ ih =>
    cases fuel with
    | zero => nomatch hp
    | succ fuel =>
      obtain ⟨f, hframe, hparent⟩ := link?_eq_some hlink
      obtain ⟨rest, hrest, hout⟩ := chainFrom_succ hframe fuel
      rw [hrest, List.find?_cons] at hp
      cases hcontains : f.vars.contains name with
      | true =>
        rw [hcontains] at hp
        cases hp
        exact hne
      | false =>
        rw [hcontains, hout parent hparent] at hp
        exact ih fuel hp

/-- **An assignment does not come as far as a shielded frame.** -/
theorem target_ne (h : Shielded s name id s.current) : (s.find? name).getD s.current ≠ id := by
  cases hfind : s.find? name with
  | none => exact h.ne
  | some i =>
    obtain ⟨p, hp, rfl⟩ := Option.map_eq_some_iff.mp hfind
    exact h.find?_chainFrom s.frames.size hp

end Shielded

theorem Rebound.shielded (h : s.Rebound s') (hshield : Shielded s name id s.current) :
    Shielded s' name id s'.current := by
  rw [h.sameFrames.current]
  exact hshield.congr (fun j _ => h.sameFrames.link? j) fun j => h.binds

theorem Rebound.binding?_of_shielded (h : s.Rebound s') (hid : id ≠ global)
    (hshield : Shielded s name id s.current) : s'.binding? id name = s.binding? id name := by
  induction h with
  | refl => rfl
  | @assign s₁ n v h₁ ih =>
    refine (binding?_bindIn_of_ne ?_ v).trans ih
    rintro ⟨htarget, rfl⟩
    exact (h₁.shielded hshield).target_ne htarget.symm
  | @define s₁ n v h₁ ih =>
    refine (binding?_bindIn_of_ne ?_ v).trans ih
    rintro ⟨hcurrent, -⟩
    exact (h₁.shielded hshield).ne hcurrent.symm
  | @defineGlobal s₁ n v h₁ ih => exact (binding?_bindIn_of_ne (fun heq => hid heq.1) v).trans ih

/-! ### Frames that come and go -/

theorem Sound.binding?_enter (hs : s.Sound) (parent : ScopeId) (hl : s.Live id) (name : String) :
    (s.enter parent).2.binding? id name = s.binding? id name := by
  refine binding?_congr ?_ name
  rw [hs.vars?_enter, if_neg]
  rintro rfl
  exact hs.not_live_nextId hl

theorem Sound.live_enter (hs : s.Sound) (parent : ScopeId) (hl : s.Live id) : (s.enter parent).2.Live id := by
  unfold Live
  rw [hs.link?_enter]
  split
  · nofun
  · exact hl

/-- From inside a new frame, what was shielded around it is shielded. -/
theorem Shielded.enter (hs : s.Sound) (hl : s.Live id) (h : Shielded s name id s.current) :
    Shielded s.enterBlock.2 name id s.enterBlock.2.current := by
  have hnew : s.enterBlock.2.current = s.nextId := current_enter s s.current
  have hdead : ∀ j, s.Live j → j ≠ s.nextId := by
    rintro j hj rfl
    exact hs.not_live_nextId hj
  rw [hnew]
  refine .around (hdead id hl).symm ?_ (h.congr (fun j hj => ?_) fun j hj => ?_)
  · rw [enterBlock, hs.link?_enter, if_pos rfl]
  · rw [enterBlock, hs.link?_enter, if_neg (hdead j hj)]
  · exact (binds_congr (hs.binding?_enter s.current hj.live name)).mpr hj

end Scopes

/-! ## Sealed computations -/

namespace Exec

variable {α β : Type}

/-- The frame of a block is given up, and the others are as the block left them. -/
theorem Balanced.binding?_inBlock {x : Exec α} (hx : Balanced x) {m : Machine} (hm : m.scopes.Sound) {id : ScopeId}
    (hl : m.scopes.Live id) (name : String) :
    (Exec.inBlock x m).2.scopes.binding? id name = (x m.inside).2.scopes.binding? id name := by
  obtain ⟨-, hsame⟩ := hx m.inside (hm.enter m.scopes.current)
  rw [inBlock_apply]
  exact Scopes.binding?_congr (hsame.vars?_leave hm m.scopes.current hl) name

theorem Balanced.binding?_called {x : Exec α} (hx : Balanced x) {m : Machine} (hm : m.scopes.Sound) {id : ScopeId}
    (hl : m.scopes.Live id) (hd : ¬ m.maxDepth ≤ m.depth) (name : String) :
    (Exec.limited x m).2.scopes.binding? id name = (x m.called).2.scopes.binding? id name := by
  obtain ⟨-, hsame⟩ := hx m.called (hm.enter Scopes.global)
  rw [limited_of_not_le _ hd]
  exact Scopes.binding?_congr (hsame.vars?_leave hm m.scopes.current hl) name

/-- **A sealed computation** is tidy and unbinds no name, binds names in the current and the global frame only, and
    leaves a frame that is shielded from assignments of a name with what it binds the name to. -/
structure Sealed (x : Exec α) : Prop extends Tidy x where
  kept : ∀ m id name, m.scopes.Sound → m.scopes.Binds id name → (x m).2.scopes.Binds id name
  names : ∀ m id name, m.scopes.Sound → m.scopes.Live id → id ≠ Scopes.global → id ≠ m.scopes.current →
    (x m).2.scopes.Binds id name → m.scopes.Binds id name
  shielded : ∀ m id name, m.scopes.Sound → m.scopes.Live id → id ≠ Scopes.global →
    m.scopes.Shielded name id m.scopes.current → (x m).2.scopes.binding? id name = m.scopes.binding? id name

namespace Sealed

theorem of_rebound {x : Exec α} (hx : Tidy x) (h : ∀ m : Machine, m.scopes.Rebound (x m).2.scopes) : Sealed x where
  toTidy := hx
  kept m _ _ _ := (h m).binds
  names m _ _ _ _ hid hc := (h m).binds_of hid hc
  shielded m _ _ _ _ hid := (h m).binding?_of_shielded hid

theorem bind {x : Exec α} {f : α → Exec β} (hx : Sealed x) (hf : ∀ a, Sealed (f a)) : Sealed (x >>= f) where
  toTidy := hx.toTidy.bind fun a => (hf a).toTidy
  kept m id name hm hb := by
    have hfirst := hx.kept m id name hm hb
    have hbalanced := hx.balanced m hm
    rw [bind_apply]
    revert hfirst hbalanced
    rcases x m with ⟨e | a, m₁⟩ <;> rintro hfirst ⟨hs, -⟩
    · exact hfirst
    · exact (hf a).kept m₁ id name hs hfirst
  names m id name hm hl hid hc hb := by
    have hfirst := hx.names m id name hm hl hid hc
    have hbalanced := hx.balanced m hm
    rw [bind_apply] at hb
    revert hfirst hbalanced hb
    rcases x m with ⟨e | a, m₁⟩ <;> rintro hb hfirst ⟨hs, hsame⟩
    · exact hfirst hb
    · refine hfirst ((hf a).names m₁ id name hs (hsame.live hl) hid ?_ hb)
      rw [hsame.current]
      exact hc
  shielded m id name hm hl hid hshield := by
    have hfirst := hx.shielded m id name hm hl hid hshield
    have hkept := fun j => hx.kept m j name hm
    have hbalanced := hx.balanced m hm
    rw [bind_apply]
    revert hfirst hkept hbalanced
    rcases x m with ⟨e | a, m₁⟩ <;> rintro hfirst hkept ⟨hs, hsame⟩
    · exact hfirst
    · refine ((hf a).shielded m₁ id name hs (hsame.live hl) hid ?_).trans hfirst
      rw [hsame.current]
      exact hshield.congr (fun j _ => hsame.link? j) hkept

/-- **In a block, and back**: no frame outside binds more names than before, not even the one around the block. -/
theorem names_inBlock {x : Exec α} (hx : Sealed x) {m : Machine} (hm : m.scopes.Sound) {id : ScopeId}
    (hl : m.scopes.Live id) (hid : id ≠ Scopes.global) {name : String}
    (hb : (Exec.inBlock x m).2.scopes.Binds id name) : m.scopes.Binds id name := by
  have hne : id ≠ m.inside.scopes.current := by
    rw [show m.inside.scopes.current = m.scopes.nextId from Scopes.current_enter ..]
    rintro rfl
    exact hm.not_live_nextId hl
  have hinside := hm.binding?_enter m.scopes.current hl name
  have hlive : m.inside.scopes.Live id := hm.live_enter m.scopes.current hl
  have hback := (Scopes.binds_congr (hx.balanced.binding?_inBlock hm hl name)).mp hb
  exact (Scopes.binds_congr hinside).mp (hx.names m.inside id name (hm.enter _) hlive hid hne hback)

theorem inBlock {x : Exec α} (hx : Sealed x) : Sealed (Exec.inBlock x) where
  toTidy := hx.toTidy.inBlock
  kept m id name hm hb := by
    have hinside : m.inside.scopes.Binds id name :=
      (Scopes.binds_congr (hm.binding?_enter m.scopes.current hb.live name)).mpr hb
    have hafter := hx.kept m.inside id name (hm.enter _) hinside
    exact (Scopes.binds_congr (hx.balanced.binding?_inBlock hm hb.live name)).mpr hafter
  names m id name hm hl hid _ hb := hx.names_inBlock hm hl hid hb
  shielded m id name hm hl hid hshield := by
    have hlive : m.inside.scopes.Live id := hm.live_enter m.scopes.current hl
    rw [hx.balanced.binding?_inBlock hm hl, hx.shielded m.inside id name (hm.enter _) hlive hid (hshield.enter hm hl)]
    exact hm.binding?_enter m.scopes.current hl name

/-- **In a call, and back**: local variables are left alone. -/
theorem binding?_limited {x : Exec α} (hx : Sealed x) {m : Machine} (hm : m.scopes.Sound) {id : ScopeId}
    (hl : m.scopes.Live id) (hid : id ≠ Scopes.global) (name : String) :
    (Exec.limited x m).2.scopes.binding? id name = m.scopes.binding? id name :=
  Scopes.binding?_congr (hx.toTidy.vars?_limited hm hl hid) name

theorem limited {x : Exec α} (hx : Sealed x) : Sealed (Exec.limited x) where
  toTidy := hx.toTidy.limited
  kept m id name hm hb := by
    by_cases hd : m.maxDepth ≤ m.depth
    · rw [limited_of_le _ hd]
      exact hb
    · have hinside : m.called.scopes.Binds id name :=
        (Scopes.binds_congr (hm.binding?_enter Scopes.global hb.live name)).mpr hb
      have hafter := hx.kept m.called id name (hm.enter _) hinside
      exact (Scopes.binds_congr (hx.balanced.binding?_called hm hb.live hd name)).mpr hafter
  names m id name hm hl hid _ hb := (Scopes.binds_congr (hx.binding?_limited hm hl hid name)).mp hb
  shielded m id name hm hl hid _ := hx.binding?_limited hm hl hid name

theorem compositional : Compositional fun x _ => Sealed x where
  give r := of_rebound (Tidy.compositional.give r) fun m => by cases r <;> exact .refl
  prim p := of_rebound (Tidy.compositional.prim p) fun m => (Prim.Footprint.exec p m).scopes
  bind := bind
  atLine line x _ h := {
    toTidy := Tidy.compositional.atLine line (y := x) h.toTidy
    kept m id name hm hb := by rw [atLine_snd]; exact h.kept m id name hm hb
    names m id name hm hl hid hc hb := by rw [atLine_snd] at hb; exact h.names m id name hm hl hid hc hb
    shielded m id name hm hl hid hs := by rw [atLine_snd]; exact h.shielded m id name hm hl hid hs }
  inBlock := inBlock
  inCall := limited

/-- **Every run is sealed.** -/
theorem run (n : Nat) (t : Task α) : Sealed (t.run n) :=
  compositional.run (of_rebound Tidy.exhausted fun _ => .refl) n t

theorem plan (n : Nat) (p : Plan α) : Sealed (p.exec fun _ => Task.run n) :=
  compositional.plan (g := fun _ => Task.run n) (fun t => run n t) p

end Sealed

end Exec

/-! ## Names of local frames -/

/-- **A task that does not bind in the current frame binds no local names**: loops, expressions and calls. -/
theorem Task.bindsNoLocals (n : Nat) {α : Type} (t : Task α) (ht : t.impact ≤ .inside) :
    (t.run n).Relates fun id s s' => ∀ name, s'.Binds id name → s.Binds id name := by
  have hnames : Scopes.Comparison fun id s s' => ∀ name, s'.Binds id name → s.Binds id name := by
    constructor
    · intro id s s' h name
      exact (Scopes.binds_congr (Scopes.binding?_congr h name)).mp
    · exact fun h h' name hb => h name (h' name hb)
  refine Task.relates hnames (Impact.le_refl _) (fun _ n α p => ?_) n t ht
  intro m id hm hl hid name
  exact (Exec.Sealed.plan n p).names_inBlock hm hl hid

/-! ## The variable of a loop -/

/-- A computation that leaves the bindings of one name alone in every live frame but the global one. -/
structure Exec.Protects {α : Type} (name : String) (x : Exec α) : Prop where
  balanced : Exec.Balanced x
  binding : x.Relates fun id s s' => s'.binding? id name = s.binding? id name

namespace Exec.Protects

variable {α β : Type} {name : String}

theorem comparison : Scopes.Comparison fun id s s' => s'.binding? id name = s.binding? id name :=
  ⟨fun h => Scopes.binding?_congr h name, fun h h' => h'.trans h⟩

theorem give (r : Except Cause α) : Protects name (ofExcept r) := by
  cases r <;> exact ⟨fun m hm => ⟨hm, .refl m.scopes⟩, fun _ _ _ _ _ => rfl⟩

theorem exhausted : Protects name (exhausted : Exec α) := ⟨fun m hm => ⟨hm, .refl m.scopes⟩, fun _ _ _ _ _ => rfl⟩

theorem bind {x : Exec α} {f : α → Exec β} (hx : Protects name x) (hf : ∀ a, Protects name (f a)) :
    Protects name (x >>= f) where
  balanced := hx.balanced.bind fun a => (hf a).balanced
  binding := .bind comparison hx.balanced hx.binding fun a => (hf a).binding

/-- **A round of a loop**: its frame binds the variable, and shields the frames outside. -/
theorem round (v : Value) {x : Exec α} (hx : Sealed x) :
    Protects name (inBlock ((Prim.define name v).exec >>= fun _ => x)) where
  balanced := ((Tidy.compositional.prim (.define name v)).balanced.bind fun _ => hx.balanced).inBlock
  binding m id hm hl hid := by
    have hbalanced : Balanced ((Prim.define name v).exec >>= fun _ => x) :=
      (Tidy.compositional.prim (.define name v)).balanced.bind fun _ => hx.balanced
    have hne : id ≠ m.scopes.nextId := by
      rintro rfl
      exact hm.not_live_nextId hl
    -- the machine in which the body starts
    let m₁ : Machine := { m.inside with scopes := m.inside.scopes.define name v }
    have hinside : m.inside.scopes.Sound := hm.enter m.scopes.current
    have hframes : m.inside.scopes.SameFrames m₁.scopes := .bindIn ..
    obtain ⟨hcurrent, hnew, -⟩ := (Scopes.SameFrames.refl m.inside.scopes).current_of_enter hm
    have hlive : m₁.scopes.Live id := hframes.live (hm.live_enter m.scopes.current hl)
    have hbound : m₁.scopes.Binds m.inside.scopes.current name := by
      unfold Scopes.Binds
      show ((m.inside.scopes.bindIn m.inside.scopes.current name v).binding? _ _).isSome = true
      rw [Scopes.binding?_bindIn hnew, if_pos ⟨rfl, rfl⟩]
      rfl
    have hshield : m₁.scopes.Shielded name id m₁.scopes.current := by
      rw [hframes.current]
      exact .bound (hcurrent ▸ hne.symm) hbound
    have hbody := hx.shielded m₁ id name (hinside.bindIn ..) hlive hid hshield
    have hdefine : m₁.scopes.binding? id name = m.inside.scopes.binding? id name := by
      refine Scopes.binding?_bindIn_of_ne (fun heq => hne ?_) v
      rw [heq.1, hcurrent]
    calc (inBlock ((Prim.define name v).exec >>= fun _ => x) m).2.scopes.binding? id name
      _ = (x m₁).2.scopes.binding? id name := hbalanced.binding?_inBlock hm hl name
      _ = m₁.scopes.binding? id name := hbody
      _ = m.inside.scopes.binding? id name := hdefine
      _ = m.scopes.binding? id name := hm.binding?_enter m.scopes.current hl name

end Exec.Protects

/-- What a loop does after a round is protected when the rest of its rounds are. -/
theorem Plan.protects_planAfter {n : Nat} {name : String} {again : Plan (Option Signal)}
    (h : Exec.Protects name (again.exec fun _ => Task.run n)) (signal : Option Signal) :
    Exec.Protects name ((Task.planAfter again signal).exec fun _ => Task.run n) := by
  rcases signal with _ | (_ | _ | _)
  · exact h
  · exact .give (.ok none)
  · exact h
  · exact .give (.ok (some _))

/-- **The rounds of a `for` loop** leave its variable alone wherever else it is bound. -/
theorem Task.protects_execFor (n : Nat) (var : String) (items : List Value) (body : Block) :
    Exec.Protects var ((Task.execFor var items body).run n) := by
  induction n generalizing items with
  | zero =>
    rw [Task.run_zero]
    exact .exhausted
  | succ n ih =>
    rw [Task.run_succ]
    cases items with
    | nil => exact .give (.ok none)
    | cons v rest =>
      have hround : Exec.Protects var
          (Exec.inBlock ((Prim.define var v).exec >>= fun _ => (Task.execBlock body).run n)) :=
        .round v (Exec.Sealed.run n (.execBlock body))
      have hagain : Exec.Protects var ((Plan.start (Task.execFor var rest body)).exec fun _ => Task.run n) := ih rest
      exact hround.bind fun signal => Plan.protects_planAfter hagain signal

/-- **A `for` loop leaves its variable alone** wherever it was bound before. -/
theorem Task.protects_for (n : Nat) (var : String) (items : Expr) (body : Block) :
    Exec.Protects var ((Task.exec (.for_ var items body)).run n) := by
  cases n with
  | zero =>
    rw [Task.run_zero]
    exact .exhausted
  | succ n =>
    rw [Task.run_succ]
    have hitems : Exec.Protects var ((Task.eval items).run n) := by
      refine ⟨Exec.Balanced.run n (.eval items), fun m id hm hl hid => ?_⟩
      exact Scopes.binding?_congr ((Task.eval items).keepsLocals n rfl m id hm hl hid) var
    exact hitems.bind fun v => (Exec.Protects.give v.iterate).bind fun vs =>
      Task.protects_execFor n var vs body

/-! ## Names of the global frame -/

/-- A run binds a global name that was not bound before. -/
def Exec.Gains {α : Type} (x : Exec α) (m : Machine) (name : String) : Prop :=
  (x m).2.scopes.Binds Scopes.global name ∧ ¬ m.scopes.Binds Scopes.global name

/-- **What brings in a global name**: the run comes to an import whose path ends in it, or to a block of another
    language that hands it back. -/
inductive Task.Introduces {α : Type} (n : Nat) (t : Task α) (m : Machine) (name : String) : Prop
  | contain {k : Nat} {path : String} {m' : Machine}
    (h : Task.Reaches (k + 1) (.exec (.contain path)) m' n t m) (hname : leafName path = name)
  | passthrough {k : Nat} {language code : String} {m' : Machine} {run : Engine.Run} {engines : List Engine}
    (h : Task.Reaches (k + 1) (.exec (.passthrough language code)) m' n t m)
    (hrun : Engine.executeIn language (m'.request code) m'.engines = .ran run engines)
    (hname : run.outcome.bindings.contains name = true)

theorem Task.Introduces.step {α β : Type} {n : Nat} {t : Task α} {u : Task β} {m m' : Machine} {name : String}
    (hs : t.plan.Starts (fun _ => Task.run n) u m m') (h : u.Introduces n m' name) :
    t.Introduces (n + 1) m name := by
  cases h with
  | contain h hname => exact .contain (.step hs h) hname
  | passthrough h hrun hname => exact .passthrough (.step hs h) hrun hname

/-- Nothing of this impact binds in the global frame, if `s` is where it is done. -/
def Impact.Spares (i : Impact) (s : Scopes) : Prop := s.current ≠ Scopes.global ∨ i ≤ .inside

theorem Impact.Spares.mono {i j : Impact} {s : Scopes} (h : i.Spares s) (hji : j ≤ i) : j.Spares s :=
  h.imp_right (Impact.le_trans hji)

theorem Impact.Spares.congr {i : Impact} {s s' : Scopes} (h : i.Spares s) (hsame : s.SameFrames s') :
    i.Spares s' := by
  unfold Spares
  rw [hsame.current]
  exact h

/-- A question that imports nothing makes no name global where the global frame is spared. -/
theorem Prim.not_gains {α : Type} (p : Prim α) (hp : ¬ p.Imports) {m : Machine} (hspares : p.impact.Spares m.scopes)
    {name : String} : ¬ p.exec.Gains m name := by
  rintro ⟨hafter, hbefore⟩
  have hlocal : p.impact = .here → m.scopes.current ≠ Scopes.global := by
    intro hhere
    rw [hhere] at hspares
    exact hspares.resolve_right Impact.not_here_le_inside
  cases p with
  | assign n v =>
    rcases Scopes.binds_of_assign hafter with hb | heq
    · exact hbefore hb
    · exact hlocal rfl heq.symm
  | define n v =>
    rcases Scopes.binds_of_bindIn hafter with hb | ⟨heq, -⟩
    · exact hbefore hb
    · exact hlocal rfl heq.symm
  | contain path => exact hp trivial
  | passthrough language code => exact hp trivial
  | _ =>
    rw [Prim.scopes_eq _ rfl] at hafter
    exact hbefore hafter

/-- A task that the plan starts gains the name. -/
def Plan.Delegates {α : Type} (p : Plan α) (n : Nat) (m : Machine) (name : String) : Prop :=
  ∃ (β : Type) (u : Task β) (m' : Machine), p.Starts (fun _ => Task.run n) u m m' ∧ m'.scopes.Sound ∧
    u.impact.Spares m'.scopes ∧ (u.run n).Gains m' name

theorem Plan.Delegates.lift {n : Nat} {α γ : Type} {p : Plan α} {q : Plan γ} {m m₀ : Machine} {name : String}
    (h : p.Delegates n m name) (hstarts : ∀ {β : Type} {u : Task β} {m' : Machine},
      p.Starts (fun _ => Task.run n) u m m' → q.Starts (fun _ => Task.run n) u m₀ m') : q.Delegates n m₀ name := by
  obtain ⟨β, u, m', hu, hrest⟩ := h
  exact ⟨β, u, m', hstarts hu, hrest⟩

/-- **A plan gains no global name by itself**, if it binds in frames of its own or the current one is not global. -/
theorem Plan.Within.delegates {n : Nat} {name : String} {α : Type} (p : Plan α) {i : Impact} (hp : p.Within i)
    {m : Machine} (hm : m.scopes.Sound) (hspares : i.Spares m.scopes)
    (h : (p.exec fun _ => Task.run n).Gains m name) : p.Delegates n m name := by
  induction p generalizing i m with
  | give r =>
    obtain ⟨hafter, hbefore⟩ := h
    cases r <;> exact absurd hafter hbefore
  | prim p => exact absurd h (p.not_gains hp.2 (hspares.mono hp.1))
  | start t => exact ⟨_, t, m, .start, hm, hspares.mono hp, h⟩
  | bind x k ihx ihk =>
    obtain ⟨hafter, hbefore⟩ := h
    have hbalanced := (Exec.Sealed.plan n x).balanced m hm
    rw [Plan.exec, Exec.bind_apply] at hafter
    rcases hx : x.exec (fun _ => Task.run n) m with ⟨e | a, m₁⟩
    · rw [hx] at hafter
      refine (ihx hp.1 hm hspares ⟨?_, hbefore⟩).lift .first
      rw [hx]
      exact hafter
    · rw [hx] at hafter hbalanced
      obtain ⟨hs, hsame⟩ := hbalanced
      by_cases hmid : m₁.scopes.Binds Scopes.global name
      · refine (ihx hp.1 hm hspares ⟨?_, hbefore⟩).lift .first
        rw [hx]
        exact hmid
      · exact (ihk a (hp.2 a) hs (hspares.congr hsame) ⟨hafter, hmid⟩).lift (.next hx)
  | atLine line x ih =>
    obtain ⟨hafter, hbefore⟩ := h
    rw [Plan.exec, Exec.atLine_snd] at hafter
    exact (ih hp hm hspares ⟨hafter, hbefore⟩).lift .atLine
  | inBlock x ih =>
    obtain ⟨hafter, hbefore⟩ := h
    have hback := (Exec.Sealed.plan n x).balanced.binding?_inBlock hm hm.live_global name
    have hinside := hm.binding?_enter m.scopes.current hm.live_global name
    -- the frame of the block is not the global one
    have hlocal : Impact.here.Spares m.inside.scopes :=
      .inl ((Scopes.SameFrames.refl m.inside.scopes).current_of_enter hm).2.2
    refine (@ih .here hp.2 m.inside (hm.enter _) hlocal ⟨?_, ?_⟩).lift .inBlock
    · exact (Scopes.binds_congr hback).mp hafter
    · exact fun hb => hbefore ((Scopes.binds_congr hinside).mp hb)
  | inCall x ih =>
    obtain ⟨hafter, hbefore⟩ := h
    by_cases hd : m.maxDepth ≤ m.depth
    · rw [Plan.exec, Exec.limited_of_le _ hd] at hafter
      exact absurd hafter hbefore
    · have hback := (Exec.Sealed.plan n x).balanced.binding?_called hm hm.live_global hd name
      have hinside := hm.binding?_enter Scopes.global hm.live_global name
      have hlocal : Impact.here.Spares m.called.scopes :=
        .inl ((Scopes.SameFrames.refl m.called.scopes).current_of_enter hm).2.2
      refine (@ih .here hp m.called (hm.enter _) hlocal ⟨?_, ?_⟩).lift (.inCall hd)
      · exact (Scopes.binds_congr hback).mp hafter
      · exact fun hb => hbefore ((Scopes.binds_congr hinside).mp hb)

/-! ### Imports and blocks of other languages -/

theorem Scopes.binds_of_merge {s : Scopes} {d : NamespaceDiff} {id : ScopeId} {name : String}
    (h : (Exec.merge s d).Binds id name) : s.Binds id name ∨ ∃ e ∈ d.added ++ d.changed, e.1 = name := by
  have hfold : ∀ {f : Scopes → String × Value → Scopes} (hf : ∀ s e, (f s e).Binds id name → s.Binds id name ∨
      e.1 = name) (es : List (String × Value)) {s : Scopes}, (es.foldl f s).Binds id name →
      s.Binds id name ∨ ∃ e ∈ es, e.1 = name := by
    intro f hf es
    induction es with
    | nil => exact .inl
    | cons e es ih =>
      intro s h
      rcases ih h with h | ⟨e', he', heq⟩
      · exact (hf s e h).imp_right fun heq => ⟨e, List.mem_cons_self, heq⟩
      · exact .inr ⟨e', List.mem_cons_of_mem _ he', heq⟩
  have hbind : ∀ (s : Scopes) (i : ScopeId) (e : String × Value), (s.bindIn i e.1 e.2).Binds id name →
      s.Binds id name ∨ e.1 = name := fun s i e h => (binds_of_bindIn h).imp_right And.right
  unfold Exec.merge at h
  rcases hfold (fun s e => hbind s _ e) d.changed h with h | ⟨e, he, heq⟩
  · rcases hfold (fun s e => hbind s _ e) d.added h with h | ⟨e, he, heq⟩
    · exact .inl h
    · exact .inr ⟨e, List.mem_append_left _ he, heq⟩
  · exact .inr ⟨e, List.mem_append_right _ he, heq⟩

/-- An import makes the last part of its path global. -/
theorem Exec.Gains.contain {n : Nat} {path name : String} {m : Machine}
    (h : ((Task.exec (.contain path)).run (n + 1)).Gains m name) : leafName path = name := by
  obtain ⟨hafter, hbefore⟩ := h
  have hrun : ((Task.exec (.contain path)).run (n + 1) m).2 = (Exec.contain path m).2 := by
    show ((Exec.contain path >>= fun _ => pure none : Exec (Option Signal)) m).2 = _
    rw [Exec.bind_apply]
    rcases Exec.contain path m with ⟨_ | _, _⟩ <;> rfl
  rw [hrun] at hafter
  unfold Exec.contain at hafter
  revert hafter
  rcases Resolver.resolveFirst m.resolvers path m.hosts with ⟨_ | ref, resolvers, hosts⟩ <;> intro hafter
  · exact absurd hafter hbefore
  · exact ((Scopes.binds_of_bindIn hafter).resolve_left hbefore).2

/-- A block makes names global that it hands back. -/
theorem Exec.Gains.passthrough {n : Nat} {language code name : String} {m : Machine}
    (h : ((Task.exec (.passthrough language code)).run (n + 1)).Gains m name) :
    ∃ run engines, Engine.executeIn language (m.request code) m.engines = .ran run engines ∧
      run.outcome.bindings.contains name = true := by
  obtain ⟨hafter, hbefore⟩ := h
  rcases Exec.passthrough_cases language code m with ⟨c, hsame, -⟩ | ⟨run, engines, hrun, -⟩
  · have hrun : ((Task.exec (.passthrough language code)).run (n + 1) m).2 = m := by
      show ((Exec.passthrough language code >>= fun _ => pure none : Exec (Option Signal)) m).2 = m
      rw [Exec.bind_error hsame]
    rw [hrun] at hafter
    exact absurd hafter hbefore
  · refine ⟨run, engines, hrun, ?_⟩
    have hexec := Exec.exec_passthrough hrun n
    rw [show (Task.exec (.passthrough language code)).run (n + 1) m = _ from hexec] at hafter
    obtain ⟨e, he, rfl⟩ := (Scopes.binds_of_merge hafter).resolve_left hbefore
    have hget : run.outcome.bindings.get? e.1 = some e.2 := by
      rcases List.mem_append.mp he with he | he
      · exact (NamespaceDiff.mem_added_iff.mp he).1
      · exact (NamespaceDiff.mem_changed_iff.mp he).1
    unfold Bindings.contains
    rw [hget]
    rfl

/-- **Where a global name comes from**, if the task spares the global frame: from an import, or from a block of another
    language, that the run comes to. -/
theorem Task.introduces_of_gains {n : Nat} {α : Type} {t : Task α} {m : Machine} (hm : m.scopes.Sound)
    (hspares : t.impact.Spares m.scopes) {name : String} (h : (t.run n).Gains m name) : t.Introduces n m name := by
  induction n generalizing α m with
  | zero =>
    obtain ⟨hafter, hbefore⟩ := h
    rw [Task.run_zero] at hafter
    exact absurd hafter hbefore
  | succ n ih =>
    by_cases himports : t.Imports
    · cases t with
      | exec s =>
        cases s with
        | contain path => exact .contain .here h.contain
        | passthrough language code =>
          obtain ⟨run, engines, hrun, hname⟩ := h.passthrough
          exact .passthrough .here hrun hname
        | _ => exact himports.elim
      | _ => exact himports.elim
    · rw [Task.run_succ] at h
      obtain ⟨β, u, m', hstarts, hm', hspares', hu⟩ :=
        Plan.Within.delegates t.plan (.plan himports) hm hspares h
      exact (ih hm' hspares' hu).step hstarts

/-! ## Loops -/

/-- **A run that leaks nothing**: the frames are restored, those that are not global bind the same names, and the
    global frame has lost none and gained those only that imports and blocks of other languages bring in. -/
structure Task.LeaksNothing {α : Type} (n : Nat) (t : Task α) (m : Machine) : Prop where
  restored : m.Restored (t.run n m).2
  locals : ∀ id, id ≠ Scopes.global → ∀ name, (t.run n m).2.scopes.Binds id name ↔ m.scopes.Binds id name
  kept : ∀ name, m.scopes.Binds Scopes.global name → (t.run n m).2.scopes.Binds Scopes.global name
  gained : ∀ name, (t.run n).Gains m name → t.Introduces n m name

/-- **Nothing leaks from a task that does not bind in the current frame.** -/
theorem Task.leaksNothing {m : Machine} (h : m.scopes.WellFormed) (n : Nat) {α : Type} (t : Task α)
    (ht : t.impact ≤ .inside) : t.LeaksNothing n m where
  restored := .run h n t
  locals id hid name := by
    constructor
    · intro hb
      have hl : m.scopes.Live id := (Machine.Restored.run h n t).live_iff.mp hb.live
      exact t.bindsNoLocals n ht m id h.toSound hl hid name hb
    · exact (Exec.Sealed.run n t).kept m id name h.toSound
  kept name := (Exec.Sealed.run n t).kept m _ name h.toSound
  gained name hgains := Task.introduces_of_gains h.toSound (.inr ht) hgains

/-- **Loops do not leak names.** From a machine with a well-formed arena, and however the loop ends, every frame but
    the global one binds the names that it bound, and the global frame gains those only that an import or a block of
    another language brings in on the way. The variable of a `for` loop is bound to what it was bound to, or not bound,
    in every frame but the global one, whatever the body assigns to it. -/
theorem loops_leak_no_names (m : Machine) (h : m.scopes.WellFormed) (fuel : Nat) :
    (∀ cond body, (Task.exec (.while_ cond body)).LeaksNothing fuel m) ∧
    ∀ var items body, (Task.exec (.for_ var items body)).LeaksNothing fuel m ∧
      ∀ id, id ≠ Scopes.global →
        (Exec.exec fuel (.for_ var items body) m).2.scopes.binding? id var = m.scopes.binding? id var := by
  refine ⟨fun cond body => ?_, fun var items body => ⟨?_, fun id hid => ?_⟩⟩
  · exact Task.leaksNothing h fuel (.exec (.while_ cond body)) (Impact.le_refl _)
  · exact Task.leaksNothing h fuel (.exec (.for_ var items body)) (Impact.le_refl _)
  · by_cases hl : m.scopes.Live id
    · exact (Task.protects_for fuel var items body).binding m id h.toSound hl hid
    · -- a dead number binds nothing, before and after
      have hrestored := Machine.Restored.run h fuel (.exec (.for_ var items body))
      exact Scopes.binding?_congr (hrestored.vars?_of_not_live hl) var

/-- A machine inside of a call that has bound `i`, with an engine that hands back a new name. -/
def Machine.looping : Machine :=
  { (Machine.initial .still).called with
    registry := .empty
    engines := [.prepared ⟨"toy", [{ set := [("z", .int 5)] }]⟩]
    scopes := (Machine.initial .still).called.scopes.define "i" (.int 1) }

/-- A loop over `i` rebinds `i`, binds `y` and runs a block of another language: the `i` outside is as it was, there is
    no `y`, and what is new in the global frame is from the block. -/
theorem loops_leak_no_names_in_call :
    let body : Block := [⟨1, .assign "i" (.literal (.int 3))⟩, ⟨2, .assign "y" (.var "i")⟩, ⟨3, .passthrough "toy" ""⟩]
    let loop : Stmt := .for_ "i" (.list [.literal (.int 2)]) body
    Machine.looping.scopes.WellFormed ∧
    (Exec.exec 20 loop Machine.looping).1 = .ok none ∧
    (Exec.exec 20 loop Machine.looping).2.scopes.binding? 1 "i" = some (.int 1) ∧
    ¬ (Exec.exec 20 loop Machine.looping).2.scopes.Binds 1 "y" ∧
    (Exec.exec 20 loop Machine.looping).2.scopes.Binds Scopes.global "z" ∧
    (Task.exec loop).Introduces 20 Machine.looping "z" := by
  intro body loop
  have hcall := Scopes.wellFormed_initial.enter Scopes.wellFormed_initial.live_global
  have h : Machine.looping.scopes.WellFormed :=
    hcall.congr (hcall.toSound.bindIn 1 "i" (.int 1)) fun id => Scopes.link?_bindIn ..
  obtain ⟨hloop, hvariable⟩ := (loops_leak_no_names Machine.looping h 20).2 "i" (.list [.literal (.int 2)]) body
  have hglobal : (Exec.exec 20 loop Machine.looping).2.scopes.Binds Scopes.global "z" := rfl
  refine ⟨h, rfl, hvariable 1 (by decide), ?_, hglobal, ?_⟩
  · intro hb
    nomatch (hloop.locals 1 (by decide) "y").mp hb
  · exact hloop.gained "z" ⟨hglobal, nofun⟩

end Helios
