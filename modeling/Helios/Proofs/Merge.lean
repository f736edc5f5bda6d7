import Helios.Proofs.Handover

/-!
# Merge — what comes back from a block of another language

An engine gets the variables in view and hands back a namespace. What it made and what it changed is merged
into the frames by two loops, which bind each name once: a new one in the global frame, a changed one in the
innermost frame in view that binds it. `Scopes.bindAll` is such a loop with the frames fixed beforehand;
both loops are instances of it, since binding a name never moves another one.

`Scopes.Merged` says what the frames are afterwards, name by name and frame by frame.
-/

namespace Helios

namespace Scopes

/-! ## What a frame binds a name to -/

/-- What a frame binds a name to. -/
def binding? (s : Scopes) (id : ScopeId) (name : String) : Option Value := (s.vars? id).bind (·.get? name)

theorem binding?_bindIn {s : Scopes} {i : ScopeId} (hi : s.Live i) (name : String) (v : Value) (id : ScopeId)
    (n : String) :
    (s.bindIn i name v).binding? id n = if id = i ∧ name = n then some v else s.binding? id n := by
  unfold binding?
  rw [vars?_bindIn]
  obtain ⟨b, hb⟩ := hi.vars?
  by_cases hid : id = i
  · subst hid
    rw [if_pos rfl, hb]
    simp
  · rw [if_neg hid, if_neg fun h => hid h.1]

theorem Chain.get?_eq {s : Scopes} {ids : List ScopeId} (h : s.Chain s.current ids) (name : String) :
    s.get? name = ids.findSome? (s.binding? · name) := by
  rw [get?_eq_view, h.view_eq]
  clear h
  induction ids with
  | nil => rfl
  | cons i ids ih =>
    unfold varsOf at ih ⊢
    rw [List.filterMap_cons, List.findSome?_cons, binding?]
    cases s.vars? i with
    | none => exact ih
    | some b =>
      dsimp only [Option.bind_some]
      rw [List.findSome?_cons, ih]

theorem Chain.find?_eq_binding {s : Scopes} {ids : List ScopeId} (h : s.Chain s.current ids) (name : String) :
    s.find? name = ids.find? fun i => (s.binding? i name).isSome := by
  rw [h.find?_eq]
  refine List.find?_congr fun i _ => ?_
  unfold binding? Bindings.contains
  cases s.vars? i <;> rfl

/-! ## Binding names one after the other -/

/-- Bind each entry in the frame that is chosen for its name. -/
def bindAll (target : String → ScopeId) (es : List (String × Value)) (s : Scopes) : Scopes :=
  es.foldl (fun s e => s.bindIn (target e.1) e.1 e.2) s

section bindAll

variable {target : String → ScopeId} {es : List (String × Value)} {s : Scopes}

theorem bindAll_cons (e : String × Value) :
    bindAll target (e :: es) s = bindAll target es (s.bindIn (target e.1) e.1 e.2) := rfl

theorem bindAll_sameFrames : s.SameFrames (bindAll target es s) := by
  induction es generalizing s with
  | nil => exact .refl s
  | cons e es ih => exact (SameFrames.bindIn s (target e.1) e.1 e.2).trans ih

/-- A name that is not among the entries stays as it is bound. -/
theorem binding?_bindAll_of_not_mem (hlive : ∀ e ∈ es, s.Live (target e.1)) {n : String}
    (hn : ∀ e ∈ es, e.1 ≠ n) (id : ScopeId) : (bindAll target es s).binding? id n = s.binding? id n := by
  induction es generalizing s with
  | nil => rfl
  | cons e es ih =>
    obtain ⟨he, hlive⟩ := List.forall_mem_cons.mp hlive
    obtain ⟨hne, hn⟩ := List.forall_mem_cons.mp hn
    have hframes := SameFrames.bindIn s (target e.1) e.1 e.2
    rw [bindAll_cons, ih (fun e' he' => hframes.live (hlive e' he')) hn, binding?_bindIn he,
      if_neg fun h => hne h.2]

/-- A name that is among the entries once is bound in its frame, and in no other. -/
theorem binding?_bindAll_of_mem (hlive : ∀ e ∈ es, s.Live (target e.1)) (hnodup : (es.map Prod.fst).Nodup)
    {n : String} {v : Value} (hn : (n, v) ∈ es) (id : ScopeId) :
    (bindAll target es s).binding? id n = if id = target n then some v else s.binding? id n := by
  induction es generalizing s with
  | nil => exact absurd hn List.not_mem_nil
  | cons e es ih =>
    obtain ⟨he, hlive⟩ := List.forall_mem_cons.mp hlive
    obtain ⟨hnew, hnodup⟩ := List.nodup_cons.mp hnodup
    have hframes := SameFrames.bindIn s (target e.1) e.1 e.2
    have hlive' : ∀ e' ∈ es, (s.bindIn (target e.1) e.1 e.2).Live (target e'.1) :=
      fun e' he' => hframes.live (hlive e' he')
    rw [bindAll_cons]
    rcases List.mem_cons.mp hn with rfl | hn
    · -- the rest binds other names
      have hrest : ∀ e' ∈ es, e'.1 ≠ n := fun e' he' heq => hnew (List.mem_map.mpr ⟨e', he', heq⟩)
      rw [binding?_bindAll_of_not_mem hlive' hrest, binding?_bindIn he]
      simp only [and_true]
    · have hne : e.1 ≠ n := fun heq => hnew (List.mem_map.mpr ⟨(n, v), hn, heq.symm⟩)
      have hother : (s.bindIn (target e.1) e.1 e.2).binding? id n = s.binding? id n := by
        rw [binding?_bindIn he, if_neg fun h => hne h.2]
      rw [ih hlive' hnodup hn, hother]

theorem bindAll_congr {target' : String → ScopeId} (h : ∀ e ∈ es, target e.1 = target' e.1) :
    bindAll target es s = bindAll target' es s := by
  induction es generalizing s with
  | nil => rfl
  | cons e es ih =>
    obtain ⟨he, h⟩ := List.forall_mem_cons.mp h
    rw [bindAll_cons, bindAll_cons, he, ih h]

/-- A name that is not among the entries is found where it was. -/
theorem find?_bindAll_of_not_mem (hlive : ∀ e ∈ es, s.Live (target e.1)) {ids : List ScopeId}
    (hids : s.Chain s.current ids) {n : String} (hn : ∀ e ∈ es, e.1 ≠ n) :
    (bindAll target es s).find? n = s.find? n := by
  rw [(bindAll_sameFrames.chain hids).find?_eq_binding, hids.find?_eq_binding]
  refine List.find?_congr fun i _ => ?_
  rw [binding?_bindAll_of_not_mem hlive hn]

/-- **Rebinding names that are bound in view** binds each where it was bound before the first of them. -/
theorem foldl_assign_eq_bindAll (hbound : ∀ e ∈ es, ∃ i, s.find? e.1 = some i) :
    es.foldl (fun s e => s.assign e.1 e.2) s = bindAll (fun n => (s.find? n).getD s.current) es s := by
  induction es generalizing s with
  | nil => rfl
  | cons e es ih =>
    obtain ⟨⟨i, hi⟩, hbound⟩ := List.forall_mem_cons.mp hbound
    obtain ⟨b, hb, hcontains⟩ := vars?_of_find? hi
    have hassign : s.assign e.1 e.2 = s.bindIn i e.1 e.2 := by
      unfold assign
      rw [hi]
      rfl
    have hfind : (s.bindIn i e.1 e.2).find? = s.find? := funext (find?_bindIn hb hcontains e.2)
    have htarget : (s.find? e.1).getD s.current = i := by rw [hi]; rfl
    rw [List.foldl_cons, hassign, ih (by rw [hfind]; exact hbound), hfind, current_bindIn, bindAll_cons, htarget]

end bindAll

/-- No number is taken or given back when variables are bound. -/
theorem Rebound.free_size {s s' : Scopes} (h : s.Rebound s') :
    s'.free = s.free ∧ s'.frames.size = s.frames.size := by
  have hbind : ∀ (t : Scopes) i name v,
      (t.bindIn i name v).free = t.free ∧ (t.bindIn i name v).frames.size = t.frames.size := by
    intro t i name v
    unfold bindIn
    split
    · exact ⟨rfl, Array.size_setIfInBounds⟩
    · exact ⟨rfl, rfl⟩
  induction h with
  | refl => exact ⟨rfl, rfl⟩
  | assign name v _ ih => exact ⟨(hbind ..).1.trans ih.1, (hbind ..).2.trans ih.2⟩
  | define name v _ ih => exact ⟨(hbind ..).1.trans ih.1, (hbind ..).2.trans ih.2⟩
  | defineGlobal name v _ ih => exact ⟨(hbind ..).1.trans ih.1, (hbind ..).2.trans ih.2⟩

/-! ## The law -/

/-- **The frames after a block that handed back `after`.** -/
structure Merged (s : Scopes) (after : Namespace) (s' : Scopes) : Prop where
  /-- A new name is bound in the global frame, and in view. -/
  added : ∀ n v, after.get? n = some v → s.visible.get? n = none →
    s'.get? n = some v ∧ ∀ id, s'.binding? id n = if id = global then some v else s.binding? id n
  /-- A name whose value changed is rebound in the innermost frame in view that binds it. -/
  changed : ∀ n v old, after.get? n = some v → s.visible.get? n = some old → old.same v = false →
    ∃ i, s.find? n = some i ∧ ∀ id, s'.binding? id n = if id = i then some v else s.binding? id n
  /-- Any other name, deleted, unchanged or unknown, is bound as before in every frame. -/
  kept : ∀ n, (∀ v, after.get? n = some v → ∃ old, s.visible.get? n = some old ∧ old.same v = true) →
    ∀ id, s'.binding? id n = s.binding? id n
  /-- The same frames are there, and the same one is current. -/
  frames : s.SameFrames s'
  free : s'.free = s.free
  size : s'.frames.size = s.frames.size

end Scopes

namespace NamespaceDiff

variable {before after : Namespace}

theorem mem_added_iff {x : String × Value} :
    x ∈ (between before after).added ↔ after.get? x.1 = some x.2 ∧ before.get? x.1 = none := by
  unfold between
  rw [List.mem_filter, Bindings.get?_eq_some_iff, Option.isNone_iff_eq_none]

theorem mem_changed_iff {x : String × Value} :
    x ∈ (between before after).changed ↔
      after.get? x.1 = some x.2 ∧ ∃ old, before.get? x.1 = some old ∧ old.same x.2 = false := by
  constructor
  · intro hx
    obtain ⟨hmem, hold⟩ := mem_changed hx
    exact ⟨(Bindings.get?_eq_some_iff _ _ _).mpr hmem, hold⟩
  · rintro ⟨hget, old, hold, hsame⟩
    refine List.mem_filter.mpr ⟨(Bindings.get?_eq_some_iff _ _ _).mp hget, ?_⟩
    rw [hold]
    simp [hsame]

end NamespaceDiff

/-- **A diff against what is in view**: new names are not bound there, changed ones are, and each stands once. -/
structure NamespaceDiff.Against (d : NamespaceDiff) (s : Scopes) : Prop where
  added : ∀ e ∈ d.added, s.get? e.1 = none
  changed : ∀ e ∈ d.changed, ∃ old, s.get? e.1 = some old
  nodup_added : (d.added.map Prod.fst).Nodup
  nodup_changed : (d.changed.map Prod.fst).Nodup

theorem NamespaceDiff.between_against (s : Scopes) (after : Namespace) : (between s.visible after).Against s where
  added e he := (s.get?_visible e.1).symm.trans (mem_added_iff.mp he).2
  changed e he := by
    obtain ⟨-, old, hold, -⟩ := mem_changed_iff.mp he
    exact ⟨old, (s.get?_visible e.1).symm.trans hold⟩
  nodup_added := after.nodup_names.sublist (List.filter_sublist.map _)
  nodup_changed := after.nodup_names.sublist (List.filter_sublist.map _)

namespace NamespaceDiff.Against

variable {d : NamespaceDiff} {s : Scopes} (h : d.Against s)
include h

theorem ne_of_added {n : String} {old : Value} (hold : s.get? n = some old) : ∀ e ∈ d.added, e.1 ≠ n := by
  rintro e he rfl
  have hnone := h.added e he
  rw [hold] at hnone
  nomatch hnone

theorem ne_of_changed {n : String} (hnone : s.get? n = none) : ∀ e ∈ d.changed, e.1 ≠ n := by
  rintro e he rfl
  obtain ⟨old, hold⟩ := h.changed e he
  rw [hnone] at hold
  nomatch hold

theorem live_target : ∀ e ∈ d.changed,
    (Scopes.bindAll (fun _ => Scopes.global) d.added s).Live ((s.find? e.1).getD s.current) := by
  intro e he
  obtain ⟨old, hold⟩ := h.changed e he
  obtain ⟨i, hi⟩ := Scopes.find?_isSome_of_get? hold
  obtain ⟨b, hb, -⟩ := Scopes.vars?_of_find? hi
  have hlive : s.Live i := by
    refine Scopes.live_iff.mpr fun hnone => ?_
    rw [Scopes.vars?, hnone] at hb
    nomatch hb
  rw [hi]
  exact Scopes.bindAll_sameFrames.live hlive

variable (hs : s.WellFormed) (hc : s.Live s.current)
include hs hc

/-- **The two loops of a merge bind each name in a frame that is known beforehand.** -/
theorem merge_eq_bindAll :
    Exec.merge s d = Scopes.bindAll (fun n => (s.find? n).getD s.current) d.changed
      (Scopes.bindAll (fun _ => Scopes.global) d.added s) := by
  obtain ⟨ids, hids⟩ := hs.chain s.current hc
  have hglobal : s.Live Scopes.global := hs.toSound.live_global
  -- a changed name is not new, so after the first loop it is found where it was
  have hfind : ∀ e ∈ d.changed,
      (Scopes.bindAll (fun _ => Scopes.global) d.added s).find? e.1 = s.find? e.1 := by
    intro e he
    obtain ⟨old, hold⟩ := h.changed e he
    exact Scopes.find?_bindAll_of_not_mem (fun _ _ => hglobal) hids (h.ne_of_added hold)
  have hbound : ∀ e ∈ d.changed,
      ∃ i, (Scopes.bindAll (fun _ => Scopes.global) d.added s).find? e.1 = some i := by
    intro e he
    obtain ⟨old, hold⟩ := h.changed e he
    rw [hfind e he]
    exact Scopes.find?_isSome_of_get? hold
  refine (Scopes.foldl_assign_eq_bindAll hbound).trans (Scopes.bindAll_congr fun e he => ?_)
  rw [hfind e he, Scopes.bindAll_sameFrames.current]

/-- A new name is bound in the global frame, and in no other. -/
theorem binding?_added {n : String} {v : Value} (hn : (n, v) ∈ d.added) (id : ScopeId) :
    (Exec.merge s d).binding? id n = if id = Scopes.global then some v else s.binding? id n := by
  rw [h.merge_eq_bindAll hs hc,
    Scopes.binding?_bindAll_of_not_mem (h.live_target) (h.ne_of_changed (h.added _ hn)),
    Scopes.binding?_bindAll_of_mem (fun _ _ => hs.toSound.live_global) h.nodup_added hn]

/-- A changed name is bound in the innermost frame in view that bound it, and in no other. -/
theorem binding?_changed {n : String} {v : Value} (hn : (n, v) ∈ d.changed) {i : ScopeId}
    (hi : s.find? n = some i) (id : ScopeId) :
    (Exec.merge s d).binding? id n = if id = i then some v else s.binding? id n := by
  obtain ⟨old, hold⟩ := h.changed _ hn
  rw [h.merge_eq_bindAll hs hc,
    Scopes.binding?_bindAll_of_mem (h.live_target) h.nodup_changed hn,
    Scopes.binding?_bindAll_of_not_mem (fun _ _ => hs.toSound.live_global) (h.ne_of_added hold), hi]
  rfl

/-- Any other name is bound as before. -/
theorem binding?_other {n : String} (ha : ∀ e ∈ d.added, e.1 ≠ n) (hch : ∀ e ∈ d.changed, e.1 ≠ n)
    (id : ScopeId) : (Exec.merge s d).binding? id n = s.binding? id n := by
  rw [h.merge_eq_bindAll hs hc, Scopes.binding?_bindAll_of_not_mem (h.live_target) hch,
    Scopes.binding?_bindAll_of_not_mem (fun _ _ => hs.toSound.live_global) ha]

/-- No frame in view bound a new name, so it is found in the global one. -/
theorem get?_added {n : String} {v : Value} (hn : (n, v) ∈ d.added) : (Exec.merge s d).get? n = some v := by
  obtain ⟨ids, hids⟩ := hs.chain s.current hc
  have hunbound : ∀ i ∈ ids, s.binding? i n = none := by
    have hnone := h.added _ hn
    rw [hids.get?_eq] at hnone
    exact List.findSome?_eq_none_iff.mp hnone
  have hbinding := h.binding?_added hs hc hn
  rw [((Scopes.Rebound.merge s d).sameFrames.chain hids).get?_eq]
  have hsome : (ids.findSome? ((Exec.merge s d).binding? · n)).isSome = true := by
    refine List.findSome?_isSome_iff.mpr ⟨Scopes.global, hids.global_mem, ?_⟩
    rw [hbinding, if_pos rfl]
    rfl
  obtain ⟨w, hw⟩ := Option.isSome_iff_exists.mp hsome
  obtain ⟨i, hi, hiw⟩ := List.exists_of_findSome?_eq_some hw
  rw [hbinding, hunbound i hi] at hiw
  split at hiw
  · rw [hw, hiw]
  · nomatch hiw

end NamespaceDiff.Against

/-- **Merging obeys the law.** -/
theorem Exec.merged {s : Scopes} (hs : s.WellFormed) (hc : s.Live s.current) (after : Namespace) :
    s.Merged after (merge s (.between s.visible after)) := by
  have hd := NamespaceDiff.between_against s after
  obtain ⟨hfree, hsize⟩ := (Scopes.Rebound.merge s (.between s.visible after)).free_size
  refine ⟨fun n v hv hnone => ?_, fun n v old hv hold hsame => ?_, fun n hn id => ?_,
    (Scopes.Rebound.merge s _).sameFrames, hfree, hsize⟩
  · have hmem : (n, v) ∈ (NamespaceDiff.between s.visible after).added :=
      NamespaceDiff.mem_added_iff.mpr ⟨hv, hnone⟩
    exact ⟨hd.get?_added hs hc hmem, hd.binding?_added hs hc hmem⟩
  · have hmem : (n, v) ∈ (NamespaceDiff.between s.visible after).changed :=
      NamespaceDiff.mem_changed_iff.mpr ⟨hv, old, hold, hsame⟩
    obtain ⟨i, hi⟩ := Scopes.find?_isSome_of_get? ((s.get?_visible n).symm.trans hold)
    exact ⟨i, hi, hd.binding?_changed hs hc hmem hi⟩
  · refine hd.binding?_other hs hc (fun e he heq => ?_) (fun e he heq => ?_) id
    · obtain ⟨hget, hnone⟩ := NamespaceDiff.mem_added_iff.mp he
      obtain ⟨old, hold, -⟩ := hn e.2 (heq ▸ hget)
      rw [heq, hold] at hnone
      nomatch hnone
    · obtain ⟨hget, old, hold, hdiffers⟩ := NamespaceDiff.mem_changed_iff.mp he
      obtain ⟨old', hold', hsame⟩ := hn e.2 (heq ▸ hget)
      rw [heq, hold'] at hold
      cases hold
      rw [hsame] at hdiffers
      nomatch hdiffers

/-- What the statement does once the engine has run. -/
theorem Exec.exec_passthrough {m : Machine} {language code : String} {run : Engine.Run} {engines : List Engine}
    (hrun : Engine.executeIn language (m.request code) m.engines = .ran run engines) (fuel : Nat) :
    exec (fuel + 1) (.passthrough language code) m =
      (match run.outcome.error with
        | some message => .error (.failed ⟨.passthrough language message, .unknown⟩)
        | none => .ok none,
       m.ran run engines) := by
  show (passthrough language code >>= fun _ => pure none) m = _
  rw [bind_apply, passthrough_of_ran hrun]
  unfold Engine.Run.report
  cases run.outcome.error <;> rfl

/-- **The law of merging.** Let an engine run a block, hand back a namespace and report an error or none. Then
    the frames obey `Scopes.Merged`; the statement fails exactly when an error is reported, with its message;
    and where the same comes back with another report, the machine ends in the same state. -/
theorem passthrough_merge_law {m : Machine} (hm : m.scopes.WellFormed) (hc : m.scopes.Live m.scopes.current)
    {language code : String} {run : Engine.Run} {engines : List Engine}
    (hrun : Engine.executeIn language (m.request code) m.engines = .ran run engines) (fuel : Nat) :
    let r := Exec.exec (fuel + 1) (.passthrough language code) m
    m.scopes.Merged run.outcome.bindings r.2.scopes ∧
    (∀ message, r.1 = .error (.failed ⟨.passthrough language message, .unknown⟩) ↔
      run.outcome.error = some message) ∧
    (r.1 = .ok none ↔ run.outcome.error = none) ∧
    ∀ others run' engines',
      Engine.executeIn language (m.request code) others = .ran run' engines' →
      run'.outcome.bindings = run.outcome.bindings → run'.hosts = run.hosts → run'.record = run.record →
      (Exec.exec (fuel + 1) (.passthrough language code) { m with engines := others }).2 =
        { r.2 with engines := engines' } := by
  intro r
  have hr : r = _ := Exec.exec_passthrough hrun fuel
  refine ⟨?_, fun message => ?_, ?_, fun others run' engines' hrun' hbindings hhosts hrecord => ?_⟩
  · rw [hr]
    exact Exec.merged hm hc run.outcome.bindings
  · rw [hr]
    cases run.outcome.error <;> simp
  · rw [hr]
    cases run.outcome.error <;> simp
  · rw [Exec.exec_passthrough (m := { m with engines := others }) hrun' fuel, hr]
    unfold Machine.ran
    rw [hbindings, hhosts, hrecord]

/-- A variable `x` in a block hides a global one, and the next block of another language changes `x`, makes `z`,
    deletes the global `y` and fails. -/
def Machine.shadowing : Machine where
  __ := Machine.initial .still
  registry := .empty
  engines := [.prepared ⟨"toy",
    [{ set := [("x", .int 2), ("z", .int 3)], delete := ["y"], error := some "no more" }]⟩]
  scopes := ((Scopes.initial.defineGlobal "x" (.int 0)).defineGlobal "y" .nil).enterBlock.2.define "x" (.int 1)

/-- The hidden `x` and the deleted `y` stay, `z` is global, and the failure is reported. -/
theorem passthrough_merge_law_shadowed :
    let r := Exec.exec 1 (.passthrough "toy" "") Machine.shadowing
    r.2.scopes.binding? 1 "x" = some (.int 2) ∧ r.2.scopes.binding? 0 "x" = some (.int 0) ∧
      r.2.scopes.binding? 0 "z" = some (.int 3) ∧ r.2.scopes.get? "z" = some (.int 3) ∧
      r.2.scopes.binding? 0 "y" = some .nil ∧
      r.1 = .error (.failed ⟨.passthrough "toy" "no more", .unknown⟩) := by
  intro r
  have hglobals : ((Scopes.initial.defineGlobal "x" (.int 0)).defineGlobal "y" .nil).WellFormed :=
    Scopes.wellFormed_initial.congr ((Scopes.wellFormed_initial.toSound.bindIn ..).bindIn ..) fun id =>
      (Scopes.link?_bindIn ..).trans (Scopes.link?_bindIn ..)
  have hinside := hglobals.enter hglobals.toSound.live_global
  have hm : Machine.shadowing.scopes.WellFormed :=
    hinside.congr (hinside.toSound.bindIn 1 "x" (.int 1)) fun id => Scopes.link?_bindIn ..
  have hc : Machine.shadowing.scopes.Live Machine.shadowing.scopes.current := nofun
  have hengine : Machine.shadowing.engines.find? (fun e => e.language = "toy") = some _ := rfl
  obtain ⟨engines, hrun⟩ := Engine.executeIn_of_find? hengine (Machine.shadowing.request "")
  obtain ⟨hmerged, herror, -, -⟩ := passthrough_merge_law hm hc hrun 0
  obtain ⟨hget, hz⟩ := hmerged.added "z" (.int 3) rfl rfl
  obtain ⟨i, hi, hx⟩ := hmerged.changed "x" (.int 2) (.int 1) rfl rfl rfl
  obtain rfl : i = 1 := (Option.some.inj hi).symm
  exact ⟨hx 1, hx 0, hz 0, hget, hmerged.kept "y" nofun 0, (herror "no more").mpr rfl⟩

end Helios
