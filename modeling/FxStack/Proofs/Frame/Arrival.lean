import FxStack.Proofs.Float.Integer
import FxStack.Proofs.Frame.Bindings

/-! Values that have the type that is declared, on their way to a draw. The conversion to their own type leaves all of
    them as they are but integers, which it sends through a single. Main statements: `Value.coerce_type`, with
    `Value.settled_eq_iff` for what is not changed, and `Session.settled_issued`, by which the same arrives in draws. -/

namespace FxStack

/-! ### Conversion to the own type -/

namespace Value

/-- What the conversion of a value to its own type makes of it. -/
def settled : Value → Value
  | .int i =>
    let n := i.toInt.natAbs
    .int (Single.clampInt32 (i.toInt.sign * BinaryFormat.nearMultiple n (Nat.log2 n - 23)))
  | v => v

theorem coerce_type (v : Value) : v.coerce v.type = some v.settled := by
  cases v with
  | bool b => cases b <;> rfl
  | int i =>
    have hbound : i.toInt.natAbs < 2 ^ 32 := by
      have := i.le_toInt
      have := i.toInt_lt
      omega
    exact congrArg (fun j => some (Value.int j)) (Single.toInt32_ofInt hbound)
  | _ => rfl

/-- An integer is kept if a single has all its bits, or if it is the greatest. -/
theorem settled_eq_iff (v : Value) :
    v.settled = v ↔ ∀ i, v = .int i →
      i = Int32.maxValue ∨ 2 ^ (Nat.log2 i.toInt.natAbs - 23) ∣ i.toInt.natAbs := by
  cases v with
  | int i =>
    have hkept := Single.toInt32_ofInt_eq_iff i
    have hcoerce : some (Value.int (Single.ofInt i.toInt).toInt32) = some (Value.int i).settled := coerce_type (.int i)
    rw [← Option.some.inj hcoerce]
    simpa using hkept
  | _ => simp [settled]

/-- The first integer that is not kept. -/
theorem int_rounded : (Value.int 16777217).type = .int ∧
    (Value.int 16777217).coerce .int = some (.int 16777216) ∧ ¬ ∀ v : Value, v.coerce v.type = some v := by
  have hrounded : (Value.int 16777217).coerce .int = some (.int 16777216) := by decide +kernel
  refine ⟨rfl, hrounded, fun h => ?_⟩
  have hsame := (h (.int 16777217)).symm.trans hrounded
  revert hsame
  decide

theorem settled_of_isSampler {v : Value} (h : v.type = .sampler2D) : v.settled = v := by
  cases v <;> first | rfl | cases h

end Value

/-- A declared default of the declared type is what the uniform falls back to. -/
theorem Uniform.fallback_eq {s : Uniform} {v : Value} (h : s.defaultValue = some v) (htype : v.type = s.type) :
    s.fallback = v.settled := by
  unfold fallback
  rw [h, Option.bind_some, ← htype, v.coerce_type, Option.getD_some]

/-! ### Draws -/

namespace Stack
variable {s : Stack} {m : Slot} {v : Value}

/-- The value that a slot is given: the override of its entry where that fits, else the declared default. -/
def Gives (s : Stack) (m : Slot) (v : Value) : Prop :=
  s.override? m.member.entry m.key = some v ∨
    (s.override? m.member.entry m.key).bind (·.coerce m.spec.type) = none ∧ m.spec.defaultValue = some v

theorem Gives.value (h : s.Gives m v) (htype : v.type = m.spec.type) :
    ((s.override? m.member.entry m.key).bind (·.coerce m.spec.type)).getD m.spec.fallback = v.settled := by
  rcases h with h | ⟨hnone, h⟩
  · rw [h, Option.bind_some, ← htype, v.coerce_type, Option.getD_some]
  · rw [hnone, Option.getD_none, Uniform.fallback_eq h htype]

end Stack

namespace Session
variable {w : Session} {place : Nat} {c : Catalog}

/-- A slot of an issued draw is bound in it under a name that nothing else is bound under, to what the slot is given. -/
theorem Reachable.lookup_issued (h : w.Reachable) (hc : w.shelf.catalog? place = some c) {device : ReferenceDevice}
    {pool : ScratchPool} {resolve : Resolver} {input : FrameInput} {x : IssuedDraw ReferenceDevice}
    (hx : x ∈ w.stack.issued c device pool resolve input) {m : Slot} (hm : m ∈ x.pass.slots) :
    let value := ((w.stack.override? m.member.entry m.key).bind (·.coerce m.spec.type)).getD m.spec.fallback
    ∃ b, x.call.uniforms.lookup m.name = some b ∧
      (m.spec.type ≠ .sampler2D → Binding.ofValue? value = some b) ∧
      (m.spec.type = .sampler2D → ∃ unit t, b = .sampler unit t ∧
        (value.textureName?.bind resolve).or (w.stack.apply c device pool resolve input).device.placeholder =
          some t) := by
  have inv := h.inv
  obtain ⟨d, r, recorded, once, -⟩ := w.stack.recorded_apply c device pool resolve input
  obtain ⟨kind, -, hpass, -, hcall⟩ := Stack.of_mem_issued hx
  have prepared := inv.coherent.caches_prepare hc device pool
  have bound := (recorded.bound x hx).mono once.placeholder
  have hnames := prepared.nodup_name_slots (inv.shelf.built place c hc) hpass
  obtain ⟨i, hi⟩ := List.mem_iff_getElem?.mp hm
  obtain ⟨b, hb, -, hplain, hsampler⟩ := prepared.getElem?_bindings inv.numbered hpass bound hi
  refine ⟨b, ?_, hplain, fun htype => ?_⟩
  · have hmem : (m.name, b) ∈ x.call.uniforms := by
      rw [hcall]
      exact List.mem_append_right _ (List.mem_of_getElem? hb)
    have hdistinct : (x.call.uniforms.map (·.1)).Nodup := by
      rw [hcall]
      exact FrameContext.nodup_name_call _ bound.map_fst hnames
    exact lookup_of_mem hdistinct hmem
  · obtain ⟨t, hunit, ht⟩ := hsampler htype
    exact ⟨_, t, hunit, ht⟩

/-- A value of the declared type that a slot is given, by override or by default, arrives in every draw as its
    conversion to that type has left it; a texture is the one of its name. Only integers that a single has not all bits
    of are changed. -/
theorem settled_issued (h : w.Reachable) (hc : w.shelf.catalog? place = some c) (device : ReferenceDevice)
    (pool : ScratchPool) (resolve : Resolver) (input : FrameInput) :
    (∀ v : Value, v.coerce v.type = some v.settled) ∧
    (∀ v : Value, v.settled = v ↔ ∀ i, v = .int i →
      i = Int32.maxValue ∨ 2 ^ (Nat.log2 i.toInt.natAbs - 23) ∣ i.toInt.natAbs) ∧
    ∀ x ∈ w.stack.issued c device pool resolve input, ∀ m ∈ x.pass.slots, ∀ v : Value,
      w.stack.Gives m v → v.type = m.spec.type →
      ∃ b, x.call.uniforms.lookup m.name = some b ∧
        (v.type ≠ .sampler2D → Binding.ofValue? v.settled = some b) ∧
        (v.type = .sampler2D → ∃ unit t, b = .sampler unit t ∧
          (v.textureName?.bind resolve).or (w.stack.apply c device pool resolve input).device.placeholder =
            some t) := by
  refine ⟨Value.coerce_type, Value.settled_eq_iff, fun x hx m hm v hgives htype => ?_⟩
  obtain ⟨b, hb, hplain, hsampler⟩ := h.lookup_issued hc hx hm
  rw [hgives.value htype, ← htype] at hplain hsampler
  refine ⟨b, hb, hplain, fun hv => ?_⟩
  rw [Value.settled_of_isSampler hv] at hsampler
  exact hsampler hv

end Session

/-! ### An integer of 25 bits -/

/-- An effect with one integer. -/
def Effect.tally : Effect where
  name := ""
  displayName := ""
  uniforms := .ofList [("count", .plain "u_count" .int)]
  code := .empty
  uvCode := none
  functions := []
  breaksPass := false

/-- The catalog of that effect alone. -/
def Catalog.tallying (id : CatalogId) : Catalog :=
  { Catalog.empty id with effects := KeyMap.empty.insert "tally" (Effect.tally.named "tally"), generation := 1 }

theorem Catalog.register_tally (id : CatalogId) :
    (Catalog.empty id).register "tally" Effect.tally = .ok (none, Catalog.tallying id) :=
  register_eq_ok.mpr ⟨Effect.validate_eq_ok.mp rfl, rfl, rfl⟩

namespace Session

/-- A session whose one entry gives an integer of 25 bits to an integer uniform, compiled. -/
def tallying : Session :=
  let w : Session :=
    ⟨(Shelf.initial.step 0 .create).step 0 (.register "tally" Effect.tally),
      (Stack.new (.fixed (.zero, .zero))).edit (.add "tally")⟩
  let w := { w with stack := (@Stack.compile Unit Device.accepting w.stack (Catalog.tallying ⟨0⟩) ()).1 }
  { w with stack := w.stack.edit (.setOverride ⟨1⟩ "count" (.int 16777217)) }

theorem catalog?_tallying : tallying.shelf.catalog? 0 = some (Catalog.tallying ⟨0⟩) := by
  have hr := Catalog.register_tally ⟨0⟩
  simp only [tallying, Shelf.step, Shelf.make, Shelf.change, Shelf.put, Shelf.initial, Identities.next,
    Identities.initial, if_true, Option.map_some, hr, Except.map]

theorem tallying_reachable : tallying.Reachable :=
  .edit _ (@Reachable.compile _ _ _ Unit Device.accepting () catalog?_tallying
    (.edit (.add "tally") (.catalog 0 (.register "tally" Effect.tally) (.catalog 0 .create (.start _)))))

/-- The last bit is lost on the way to the draw. -/
theorem settled_issued_tallying :
    let device := ((ReferenceDevice.new (2, 2)).upload (.solid 1 1 .white)).2
    ∃ x ∈ tallying.stack.issued (Catalog.tallying ⟨0⟩) device .empty (fun _ => none) ⟨⟨1⟩, none, none⟩,
      ∃ m ∈ x.pass.slots, m.spec.type = .int ∧ tallying.stack.Gives m (.int 16777217) ∧
        x.call.uniforms.lookup m.name = some (.int 16777216) := by
  intro device
  have h := (settled_issued tallying_reachable catalog?_tallying device .empty (fun _ => none) ⟨⟨1⟩, none, none⟩).2.2
  obtain ⟨x, hx, m, hm, htype, hgives⟩ :
      ∃ x ∈ tallying.stack.issued (Catalog.tallying ⟨0⟩) device .empty (fun _ => none) ⟨⟨1⟩, none, none⟩,
        ∃ m ∈ x.pass.slots, m.spec.type = .int ∧ tallying.stack.Gives m (.int 16777217) :=
    ⟨_, List.mem_cons_self, _, List.mem_cons_self, rfl, .inl rfl⟩
  obtain ⟨b, hb, hplain, -⟩ := h x hx m hm _ hgives htype.symm
  have hsettled : (Value.int 16777217).settled = .int 16777216 := by decide +kernel
  have hbinding := hplain nofun
  rw [hsettled] at hbinding
  exact ⟨x, hx, m, hm, htype, hgives, hb.trans hbinding.symm⟩

end Session
end FxStack
