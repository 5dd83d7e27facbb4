import FxStack.Proofs.Frame.Issued
import FxStack.Proofs.Stack.Session
import FxStack.Proofs.Uniform.Name

/-! What every draw of a pass binds. The names of slots differ from each other and from those of every
    program, since members stand at different positions and a base name does not end with a digit; and the
    value of a slot is that of the entry which its member was compiled from, since passes are never stale. -/

namespace FxStack

/-! ### Names of slots -/

theorem Member.of_mem_slots {m : Member} {s : Slot} (h : s ∈ m.slots) :
    s.member = m ∧ (s.key, s.spec) ∈ m.effect.uniforms.toList := by
  unfold slots at h
  obtain ⟨u, hu, rfl⟩ := List.mem_map.mp h
  exact ⟨rfl, hu⟩

theorem Member.nodup_name_slots {m : Member} (h : m.effect.Valid) : (m.slots.map Slot.name).Nodup := by
  have hnames : m.slots.map Slot.name = (m.effect.uniforms.toList.map (·.2.baseName)).map (· ++ toString m.index) := by
    unfold slots
    rw [List.map_map, List.map_map]
    rfl
  rw [hnames]
  refine h.distinct.map fun a b hab => ?_
  have hlists := congrArg String.toList hab
  rw [String.toList_append, String.toList_append] at hlists
  exact String.toList_inj.mp (List.append_cancel_right hlists)

/-- Members at different positions have no name in common. -/
theorem Member.disjoint_name_slots {m n : Member} (hm : m.effect.Valid) (hn : n.effect.Valid) (hne : m.index ≠ n.index) :
    (m.slots.map Slot.name).Disjoint (n.slots.map Slot.name) := by
  intro name hnm hnn
  obtain ⟨s, hs, rfl⟩ := List.mem_map.mp hnm
  obtain ⟨t, ht, hst⟩ := List.mem_map.mp hnn
  obtain ⟨hsm, hsu⟩ := of_mem_slots hs
  obtain ⟨htn, htu⟩ := of_mem_slots ht
  -- Base names do not end with a digit, so equal names have equal positions.
  have hindex := (Uniform.nameAt_inj (hn.digits _ htu) (hm.digits _ hsu) hst).2
  rw [htn, hsm] at hindex
  exact hne hindex.symm

theorem nodup_name_slots {ms : List Member} (hindex : ms.Pairwise fun m n => m.index < n.index)
    (hv : ∀ m ∈ ms, m.effect.Valid) : ((ms.flatMap Member.slots).map Slot.name).Nodup := by
  rw [List.map_flatMap, List.nodup_flatMap]
  refine ⟨fun m hm => Member.nodup_name_slots (hv m hm), ?_⟩
  refine (List.pairwise_iff_forall_sublist.mpr fun {m n} hsub => ?_)
  have hm := hv m (hsub.subset (by simp))
  have hn := hv n (hsub.subset (by simp))
  exact Member.disjoint_name_slots hm hn (Nat.ne_of_lt (List.pairwise_iff_forall_sublist.mp hindex hsub))

/-! ### Names of every program -/

namespace FrameContext
variable {δ : Type} [Device δ] (c : FrameContext)

theorem map_fst_depthBindings (device : δ) (program : ProgramId) :
    (c.depthBindings device program).map (·.1) = [] ∨
      (c.depthBindings device program).map (·.1) = [GlobalUniform.depthTexture, GlobalUniform.depthRange] := by
  unfold depthBindings
  split
  · exact Or.inl rfl
  · split
    · exact Or.inr rfl
    · exact Or.inl rfl

/-- The names that no member declares are some of those of every program, each once. -/
theorem sublist_names (device : δ) (program : ProgramId) (t : TextureId) :
    ((inputBinding t :: c.globals.bindings ++ c.depthBindings device program).map (·.1)).Sublist GlobalUniform.names := by
  rw [List.map_append]
  rcases c.map_fst_depthBindings device program with h | h <;> rw [h]
  · exact List.sublist_append_left [GlobalUniform.texture, GlobalUniform.resolution, GlobalUniform.inverseResolution,
      GlobalUniform.aspect, GlobalUniform.random] [GlobalUniform.depthTexture, GlobalUniform.depthRange]
  · exact List.Sublist.refl GlobalUniform.names

theorem nodup_name_call {program : ProgramId} {f : Frame δ} {g : Gathering δ} {slots : List Slot}
    (hg : g.bindings.map (·.1) = slots.map Slot.name) (hs : (slots.map Slot.name).Nodup) :
    ((c.call program f g).uniforms.map (·.1)).Nodup := by
  have hsub := c.sublist_names f.device program f.input
  have huniforms : (c.call program f g).uniforms.map (·.1) =
      (inputBinding f.input :: c.globals.bindings ++ c.depthBindings f.device program).map (·.1)
        ++ slots.map Slot.name := by
    rw [← hg, ← List.map_append]
    rfl
  rw [huniforms, List.nodup_append]
  refine ⟨GlobalUniform.nodup_names.sublist hsub, hs, fun n hn m hm hnm => ?_⟩
  obtain ⟨s, -, rfl⟩ := List.mem_map.mp hm
  rw [hnm] at hn
  exact GlobalUniform.nameAt_notMem_names s.spec s.member.index (hsub.subset hn)

end FrameContext

/-! ### Entries of members -/

namespace Stack
variable {s : Stack} {c : Catalog}

theorem Caches.sublist_members {entries : List Entry} (h : s.Caches c entries) {p : Pass} (hp : p ∈ s.passes) :
    p.members.Sublist (Compilation.members c entries) := by
  have hrun : p.members ∈ Compilation.runs (Compilation.members c entries) := by
    rw [← h.map_members]
    exact List.mem_map_of_mem hp
  have hsub := List.sublist_flatten_of_mem hrun
  rwa [(Compilation.isCut_runs _).1] at hsub

/-- A member of a compiled pass still stands for the entry of its handle. -/
theorem Numbered.currentEntry?_eq (hs : s.Numbered) {m : Member} (h : m ∈ Compilation.members c s.entries) :
    m.currentEntry? s.entries = s.entryOf? m.entry := by
  obtain ⟨e, he, hid, -⟩ := Compilation.mem_members.mp h
  unfold Member.currentEntry?
  rw [he, ← hid, hs.entryOf?_of_mem (List.mem_of_getElem? he), Option.filter_some_pos]
  simp [hid]

end Stack

/-- The passes that are drawn bind each slot under a name of its own. -/
theorem Stack.Caches.nodup_name_slots {s : Stack} {c : Catalog} {entries : List Entry} (h : s.Caches c entries)
    (hc : c.Built) {p : Pass} (hp : p ∈ s.passes) : (p.slots.map Slot.name).Nodup := by
  have hsub := h.sublist_members hp
  refine FxStack.nodup_name_slots ((Compilation.pairwise_index_members c entries).sublist hsub) fun m hm => ?_
  obtain ⟨e, -, -, heffect⟩ := Compilation.mem_members.mp (hsub.subset hm)
  exact (hc.sound e.name m.effect heffect).1

/-- A slot of a drawn pass has the override of the entry that its member was compiled from. -/
theorem Stack.Caches.override?_slot {s t : Stack} {c : Catalog} (h : t.Caches c s.entries) (hs : s.Numbered) {p : Pass}
    (hp : p ∈ t.passes) {slot : Slot} (hslot : slot ∈ p.slots) :
    slot.override? s.entries = s.override? slot.member.entry slot.key := by
  obtain ⟨m, hm, hslot⟩ := List.mem_flatMap.mp hslot
  obtain ⟨rfl, -⟩ := Member.of_mem_slots hslot
  unfold Slot.override? Stack.override?
  rw [hs.currentEntry?_eq ((h.sublist_members hp).subset hm)]

/-- A slot of a drawn pass is bound to the override of the entry that its member was compiled from, where that
    fits, or to what the declaration falls back to; a texture at the next free unit. -/
theorem Stack.Caches.getElem?_bindings {s t : Stack} {c : Catalog} (h : t.Caches c s.entries) (hs : s.Numbered) {p : Pass}
    (hp : p ∈ t.passes) {resolve : Resolver} {placeholder : Option TextureId} {unit : Nat} {bs : List NamedBinding}
    (hbinds : Slot.Binds s.entries resolve placeholder unit p.slots bs) {i : Nat} {slot : Slot}
    (hslot : p.slots[i]? = some slot) :
    let value := ((s.override? slot.member.entry slot.key).bind (·.coerce slot.spec.type)).getD slot.spec.fallback
    ∃ b, bs[i]? = some (slot.name, b) ∧ b.type = slot.spec.type ∧
      (slot.spec.type ≠ .sampler2D → Binding.ofValue? value = some b) ∧
      (slot.spec.type = .sampler2D → ∃ u,
        b = .sampler (unit + (p.slots.take i).countP (·.spec.type = .sampler2D)) u ∧
        (value.textureName?.bind resolve).or placeholder = some u) := by
  obtain ⟨b, hb, bound⟩ := hbinds.getElem? hslot
  have hvalue := bound.value
  have htexture := bound.texture
  have hoverride := h.override?_slot hs hp (List.mem_of_getElem? hslot)
  simp only [Slot.texture?, Slot.value, hoverride] at hvalue htexture
  refine ⟨b, hb, bound.type, fun hplain => hvalue ?_, fun hsampler => htexture ?_⟩
  · simpa [Slot.isSampler, ShaderType.isSampler] using hplain
  · simpa [Slot.isSampler, ShaderType.isSampler] using hsampler

/-! ### Every draw -/

/-- A device that takes every program for one and the same, and shows nothing. -/
@[reducible] def Device.accepting : Device Unit where
  compileProgram _ _ _ := (.ok ⟨0⟩, ())
  deleteProgram _ _ := ()
  hasUniform _ _ _ := false
  createTexture _ _ := (.ok ⟨0⟩, ())
  destroyTexture _ _ := ()
  textureKind? _ _ := none
  placeholderTexture _ := (.ok ⟨0⟩, ())
  setSampler _ _ _ := ()
  setFixedFunction _ _ := ()
  displaySize _ := (1, 1)
  draw _ _ := (.ok (), ())
  copy _ _ _ := (.ok (), ())

end FxStack
