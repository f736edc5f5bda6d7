import Helios.Proofs.Arena
import Helios.Proofs.Logic

/-!
# Balance — every run gives its frames back

Whatever is run, and however it ends, the frames are those from before and the current one is current again:
frames that are entered on the way are left on every path out (`Exec.Balanced`). Only variables differ.
-/

namespace Helios

/-! ## The same frames -/

/-- **The same frames**, with the same one current; their variables may differ. -/
structure Scopes.SameFrames (s s' : Scopes) : Prop where
  current : s'.current = s.current
  link? : ∀ id, s'.link? id = s.link? id

namespace Scopes.SameFrames

theorem refl (s : Scopes) : SameFrames s s := ⟨rfl, fun _ => rfl⟩

/-- Changes that keep the frames, one after the other. -/
theorem trans {s s' s'' : Scopes} (h : SameFrames s s') (h' : SameFrames s' s'') : SameFrames s s'' :=
  ⟨h'.current.trans h.current, fun id => (h'.link? id).trans (h.link? id)⟩

/-- The frames in view are the same. -/
theorem chain {s s' : Scopes} (h : SameFrames s s') {ids : List ScopeId} (hc : s.Chain s.current ids) :
    s'.Chain s'.current ids := by
  rw [h.current]
  exact hc.congr_of_mem fun i _ => h.link? i

/-- Inside a frame that was entered, that frame is current, live and not the global one. -/
theorem current_of_enter {s s' : Scopes} (hs : s.Sound) {parent : ScopeId}
    (h : SameFrames (s.enter parent).2 s') :
    s'.current = s.nextId ∧ s'.Live s'.current ∧ s'.current ≠ global := by
  have hc : s'.current = s.nextId := by rw [h.current, current_enter]
  exact ⟨hc, hs.live_nextId parent hc h.link?⟩

theorem live {s s' : Scopes} (h : SameFrames s s') {id : ScopeId} (hl : s.Live id) : s'.Live id := by
  unfold Live
  rw [h.link?]
  exact hl

end Scopes.SameFrames

theorem Scopes.SameFrames.bindIn (s : Scopes) (id : ScopeId) (name : String) (v : Value) :
    SameFrames s (s.bindIn id name v) := ⟨current_bindIn s id name v, link?_bindIn s id name v⟩

/-- Rebinding variables keeps the frames. -/
theorem Scopes.Rebound.sameFrames {s s' : Scopes} (h : s.Rebound s') : s.SameFrames s' := by
  induction h with
  | refl => exact .refl s
  | assign | define | defineGlobal => exact SameFrames.trans ‹_› (.bindIn ..)

theorem Scopes.Rebound.sound {s s' : Scopes} (h : s.Rebound s') (hs : s.Sound) : s'.Sound := by
  induction h with
  | refl => exact hs
  | assign | define | defineGlobal => exact Sound.bindIn ‹_› ..

/-! ## Balanced computations -/

/-- **A balanced computation** keeps the frames of a sound arena. -/
def Exec.Balanced {α : Type} (x : Exec α) : Prop :=
  ∀ m, m.scopes.Sound → (x m).2.scopes.Sound ∧ m.scopes.SameFrames (x m).2.scopes

namespace Exec.Balanced

variable {α β : Type}

/-- One computation after another. -/
theorem bind {x : Exec α} {f : α → Exec β} (hx : Balanced x) (hf : ∀ a, Balanced (f a)) :
    Balanced (x >>= f) := by
  intro m hm
  rw [bind_apply]
  have h := hx m hm
  revert h
  rcases x m with ⟨e | a, m'⟩ <;> rintro ⟨hs, hsame⟩
  · exact ⟨hs, hsame⟩
  · obtain ⟨hs', hsame'⟩ := hf a m' hs
    exact ⟨hs', hsame.trans hsame'⟩

/-- A frame around a balanced computation is given back. -/
theorem leave {s s' : Scopes} (hs : s.Sound) (parent : ScopeId) (hs' : s'.Sound)
    (h : (s.enter parent).2.SameFrames s') :
    (s'.leave s.current).Sound ∧ s.SameFrames (s'.leave s.current) := by
  obtain ⟨hc, -, -⟩ := h.current_of_enter hs
  obtain ⟨hsound, hlink⟩ := hs.leave_of_links parent hs' hc h.link? s.current
  exact ⟨hsound, Scopes.current_leave s' s.current, hlink⟩

/-- The frame of a block is entered and left. -/
theorem inBlock {x : Exec α} (hx : Balanced x) : Balanced (inBlock x) := by
  intro m hm
  rw [inBlock_apply]
  obtain ⟨hs, hsame⟩ := hx m.inside (hm.enter m.scopes.current)
  exact leave hm m.scopes.current hs hsame

theorem limited {x : Exec α} (hx : Balanced x) : Balanced (limited x) := by
  intro m hm
  by_cases hd : m.maxDepth ≤ m.depth
  · rw [limited_of_le x hd]
    exact ⟨hm, .refl _⟩
  · rw [limited_of_not_le x hd]
    obtain ⟨hs, hsame⟩ := hx m.called (hm.enter Scopes.global)
    exact leave hm Scopes.global hs hsame

/-- Balance goes by what computations are made of. -/
theorem compositional : Compositional fun x _ => Balanced x where
  give r := by cases r <;> exact fun m hm => ⟨hm, .refl _⟩
  prim p := fun m hm =>
    have h := (Prim.Footprint.exec p m).scopes
    ⟨h.sound hm, h.sameFrames⟩
  bind := bind
  atLine line x _ h := fun m hm => by rw [atLine_snd]; exact h m hm
  inBlock := inBlock
  inCall := limited

/-- **Every run is balanced.** -/
theorem run (n : Nat) (t : Task α) : Balanced (t.run n) :=
  compositional.run (fun m hm => ⟨hm, .refl m.scopes⟩) n t

end Exec.Balanced

/-! ## What a run restores -/

/-- The machine after one source text after another; a failure ends its own text only. -/
def Machine.session (m : Machine) (sources : List String) : Machine :=
  sources.foldl (fun m source => (m.runSource source).2) m

/-- **What is restored at the end of a run**: which frame is current, the depth of calls, which frames are
    live, how many, and the parent of each; and the arena is well formed again. -/
structure Machine.Restored (m m' : Machine) : Prop where
  current : m'.scopes.current = m.scopes.current
  depth : m'.depth = m.depth
  liveIds : m'.scopes.liveIds = m.scopes.liveIds
  live : m'.scopes.live = m.scopes.live
  link? : ∀ id, m'.scopes.link? id = m.scopes.link? id
  wellFormed : m'.scopes.WellFormed

namespace Machine.Restored

theorem refl {m : Machine} (h : m.scopes.WellFormed) : Restored m m :=
  ⟨rfl, rfl, rfl, rfl, fun _ => rfl, h⟩

/-- What is restored twice is restored. -/
theorem trans {m m' m'' : Machine} (h : Restored m m') (h' : Restored m' m'') : Restored m m'' where
  current := h'.current.trans h.current
  depth := h'.depth.trans h.depth
  liveIds := h'.liveIds.trans h.liveIds
  live := h'.live.trans h.live
  link? id := (h'.link? id).trans (h.link? id)
  wellFormed := h'.wellFormed

theorem run {m : Machine} (h : m.scopes.WellFormed) (n : Nat) {α : Type} (t : Task α) :
    Restored m (t.run n m).2 := by
  obtain ⟨hs, hsame⟩ := Exec.Balanced.run n t m h.toSound
  refine ⟨hsame.current, ?_, ?_, h.toSound.live_congr hs hsame.link?, hsame.link?, h.congr hs hsame.link?⟩
  · exact (Exec.KeepsDepth.run n t m).1
  · ext id
    rw [Scopes.mem_liveIds, Scopes.mem_liveIds, Scopes.Live, Scopes.Live, hsame.link?]

theorem runSource {m : Machine} (h : m.scopes.WellFormed) (source : String) :
    Restored m (m.runSource source).2 := by
  unfold Machine.runSource Exec.runSource
  cases Stmt.parseProgram source with
  | error e => exact refl h
  | ok program =>
    have hrun := run h ampleFuel (.execBlock program)
    show Restored m ((Exec.execBlock ampleFuel program >>= fun _ => pure ()) m).2
    rw [Exec.bind_apply]
    revert hrun
    show Restored m (Exec.execBlock ampleFuel program m).2 → _
    rcases Exec.execBlock ampleFuel program m with ⟨_ | _, m'⟩ <;> exact id

theorem session {m : Machine} (h : m.scopes.WellFormed) (sources : List String) :
    Restored m (m.session sources) := by
  induction sources generalizing m with
  | nil => exact refl h
  | cons source rest ih =>
    have hone := runSource h source
    exact hone.trans (ih hone.wellFormed)

end Machine.Restored

/-- **Frames and depth are balanced**: executing statements, a statement, an expression or a call from a
    machine with a well-formed arena restores the frames and the depth, however it ends. So does any session
    on a machine that has run nothing yet: it is back in the global frame, the only one. -/
theorem frames_and_depth_balanced :
    (∀ (fuel : Nat) (m : Machine), m.scopes.WellFormed →
      (∀ b, m.Restored (Exec.execBlock fuel b m).2) ∧
      (∀ s, m.Restored (Exec.execLocated fuel s m).2) ∧
      (∀ s, m.Restored (Exec.exec fuel s m).2) ∧
      (∀ e, m.Restored (Exec.eval fuel e m).2) ∧
      ∀ name args, m.Restored (Exec.callFunction fuel name args m).2) ∧
    ∀ (m : Machine) (sources : List String), m.scopes = .initial → m.depth = 0 →
      (m.session sources).scopes.current = Scopes.global ∧ (m.session sources).depth = 0 ∧
        (m.session sources).scopes.live = 1 := by
  refine ⟨fun fuel m h => ⟨?_, ?_, ?_, ?_, ?_⟩, fun m sources hs hd => ?_⟩
  · exact fun b => .run h fuel (.execBlock b)
  · exact fun s => .run h fuel (.execLocated s)
  · exact fun s => .run h fuel (.exec s)
  · exact fun e => .run h fuel (.eval e)
  · exact fun name args => .run h fuel (.callFunction name args)
  · have hr := Machine.Restored.session (hs ▸ Scopes.wellFormed_initial) sources
    exact ⟨by rw [hr.current, hs]; rfl, by rw [hr.depth, hd], by rw [hr.live, hs]; rfl⟩

/-- In the frame of a loop in the frame of a call; and after a loop that fails, then a program. -/
theorem frames_and_depth_balanced_in_loop :
    (Machine.initial .still).called.inside.scopes.WellFormed ∧
    (Machine.initial .still).called.inside.Restored
      (Exec.callFunction 9 "len" [.nil] (Machine.initial .still).called.inside).2 ∧
    ((Machine.initial .still).session ["for i in [1, 2]: let y = i / 0 end", "print 1"]).scopes.live = 1 := by
  have hcall := Scopes.wellFormed_initial.enter Scopes.wellFormed_initial.live_global
  have h : (Machine.initial .still).called.inside.scopes.WellFormed :=
    hcall.enter (by rw [Scopes.Live]; decide)
  exact ⟨h, (frames_and_depth_balanced.1 9 _ h).2.2.2.2 "len" [.nil],
    (frames_and_depth_balanced.2 (Machine.initial .still) _ rfl rfl).2.2⟩

end Helios
