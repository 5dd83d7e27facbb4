import FxStack.Proofs.Device.Service
import Mathlib.Algebra.Ring.Nat

/-! The block of a recorded draw and its index. The block is packed in one pass over the uniforms and the index adds up
    offsets in another; both split the uniforms at the first value of a name, so what the index finds is that value.
    Main statement: `ReferenceDevice.draws_indexed`. -/

namespace FxStack

/-! ### Packed values -/

namespace Binding

theorem length_bytes (b : Binding) : b.bytes.length = 4 * b.words.length := by cases b <;> rfl

theorem words_ne_nil (b : Binding) : b.words ≠ [] := by cases b <;> nofun

theorem four_dvd_length (b : Binding) : 4 ∣ b.bytes.length := ⟨_, b.length_bytes⟩

theorem length_bytes_pos (b : Binding) : 0 < b.bytes.length := by
  have := List.length_pos_iff.mpr b.words_ne_nil
  rw [length_bytes]
  omega

end Binding

/-- The bytes of the values in their order. -/
def packed (uniforms : List NamedBinding) : List UInt8 := uniforms.flatMap fun u => u.2.bytes

theorem packed_cons (u : NamedBinding) (us : List NamedBinding) : packed (u :: us) = u.2.bytes ++ packed us :=
  List.flatMap_cons

theorem packed_append (us vs : List NamedBinding) : packed (us ++ vs) = packed us ++ packed vs := List.flatMap_append

theorem length_packed (us : List NamedBinding) : (packed us).length = (us.map fun u => u.2.bytes.length).sum :=
  List.length_flatMap

theorem four_dvd_length_packed (us : List NamedBinding) : 4 ∣ (packed us).length := by
  induction us with
  | nil => exact Nat.dvd_zero 4
  | cons u us ih =>
    rw [packed_cons, List.length_append]
    exact Nat.dvd_add u.2.four_dvd_length ih

/-! ### Consecutive ranges -/

/-- Ranges that are not empty and follow one another from `start` to `stop`. -/
inductive Consecutive : Nat → List (Nat × Nat) → Nat → Prop
  | none (start : Nat) : Consecutive start [] start
  | next {start mid stop : Nat} {ranges : List (Nat × Nat)} :
      start < mid → Consecutive mid ranges stop → Consecutive start ((start, mid) :: ranges) stop

namespace Consecutive
variable {start stop : Nat} {ranges : List (Nat × Nat)}

theorem start_le (h : Consecutive start ranges stop) : ∀ r ∈ ranges, start ≤ r.1 := by
  induction h with
  | none => nofun
  | next hlt _ ih =>
    intro r hr
    rcases List.mem_cons.mp hr with rfl | hr
    · exact Nat.le_refl _
    · exact Nat.le_trans (Nat.le_of_lt hlt) (ih r hr)

/-- Each range ends before the later ones start. -/
theorem disjoint (h : Consecutive start ranges stop) : ranges.Pairwise fun r r' => r.2 ≤ r'.1 := by
  induction h with
  | none => exact .nil
  | next _ hrest ih => exact .cons hrest.start_le ih

/-- No place between the ends is left out. -/
theorem covers (h : Consecutive start ranges stop) {i : Nat} (hstart : start ≤ i) (hstop : i < stop) :
    ∃ r ∈ ranges, r.1 ≤ i ∧ i < r.2 := by
  induction h with
  | none => exact absurd hstop (Nat.not_lt.mpr hstart)
  | @next start mid _ _ _ _ ih =>
    by_cases hmid : i < mid
    · exact ⟨_, List.mem_cons_self, hstart, hmid⟩
    · obtain ⟨r, hr, hcover⟩ := ih (Nat.not_lt.mp hmid) hstop
      exact ⟨r, List.mem_cons_of_mem _ hr, hcover⟩

end Consecutive

/-! ### The index -/

namespace RecordedDraw
variable {name : String} {us : List NamedBinding}

/-- What is found is the range of the first value of the name. -/
theorem rangeFrom_eq_some {offset start stop : Nat} : rangeFrom name offset us = some (start, stop) ↔
    ∃ before v after, us = before ++ (name, v) :: after ∧ name ∉ before.map (·.1) ∧
      start = offset + (packed before).length ∧ stop = start + v.bytes.length := by
  induction us generalizing offset with
  | nil => simp [rangeFrom]
  | cons u us ih =>
    obtain ⟨n, b⟩ := u
    unfold rangeFrom
    by_cases hname : name = n
    · subst hname
      rw [if_pos rfl, Option.some.injEq, Prod.mk.injEq]
      constructor
      · rintro ⟨rfl, rfl⟩
        exact ⟨[], b, us, rfl, List.not_mem_nil, rfl, rfl⟩
      · rintro ⟨before, v, after, hsplit, hnew, rfl, rfl⟩
        cases before with
        | nil =>
          obtain ⟨⟨-, rfl⟩, rfl⟩ := by simpa using hsplit
          exact ⟨rfl, rfl⟩
        | cons w before =>
          obtain ⟨rfl, -⟩ := List.cons.inj hsplit
          exact absurd List.mem_cons_self hnew
    · rw [if_neg hname, ih]
      constructor
      · rintro ⟨before, v, after, rfl, hnew, rfl, rfl⟩
        refine ⟨(n, b) :: before, v, after, rfl, List.not_mem_cons_of_ne_of_not_mem hname hnew, ?_, rfl⟩
        rw [packed_cons, List.length_append, Nat.add_assoc]
      · rintro ⟨before, v, after, hsplit, hnew, rfl, rfl⟩
        cases before with
        | nil => exact absurd (congrArg Prod.fst (List.cons.inj hsplit).1).symm hname
        | cons w before =>
          obtain ⟨rfl, rfl⟩ := List.cons.inj hsplit
          refine ⟨before, v, after, rfl, fun hmem => hnew (List.mem_cons_of_mem _ hmem), ?_, rfl⟩
          rw [packed_cons, List.length_append, Nat.add_assoc]

theorem isSome_rangeFrom (offset : Nat) : (rangeFrom name offset us).isSome = (us.lookup name).isSome := by
  induction us generalizing offset with
  | nil => rfl
  | cons u us ih =>
    rw [lookup_cons_ite, rangeFrom]
    split
    · rfl
    · exact ih _

/-- The ranges of the values in their order. -/
def ranges (offset : Nat) : List NamedBinding → List (Nat × Nat)
  | [] => []
  | u :: us => (offset, offset + u.2.bytes.length) :: ranges (offset + u.2.bytes.length) us

theorem consecutive_ranges (offset : Nat) (us : List NamedBinding) :
    Consecutive offset (ranges offset us) (offset + (packed us).length) := by
  induction us generalizing offset with
  | nil => exact .none offset
  | cons u us ih =>
    rw [packed_cons, List.length_append, ← Nat.add_assoc]
    exact .next (Nat.lt_add_of_pos_right u.2.length_bytes_pos) (ih _)

theorem map_rangeFrom (offset : Nat) (hnames : (us.map (·.1)).Nodup) :
    us.map (fun u => rangeFrom u.1 offset us) = (ranges offset us).map some := by
  induction us generalizing offset with
  | nil => rfl
  | cons u us ih =>
    obtain ⟨hnew, hrest⟩ := List.nodup_cons.mp hnames
    have hlater : us.map (fun w => rangeFrom w.1 offset (u :: us)) =
        us.map fun w => rangeFrom w.1 (offset + u.2.bytes.length) us := by
      refine List.map_congr_left fun w hw => ?_
      have hne : w.1 ≠ u.1 := fun heq => hnew (List.mem_map.mpr ⟨w, hw, heq⟩)
      rw [rangeFrom, if_neg hne]
    rw [List.map_cons, hlater, ih _ hrest, rangeFrom, if_pos rfl]
    rfl

/-- The block of the draw is what its index says. -/
structure Indexed (r : RecordedDraw) : Prop where
  named : ∀ name, (r.blockRange? name).isSome ↔ (r.uniform? name).isSome
  bytes : ∀ name start stop, r.blockRange? name = some (start, stop) → start ≤ stop ∧ stop ≤ r.block.length ∧
    ∃ v, r.uniform? name = some v ∧ (r.block.take stop).drop start = v.bytes
  length : r.block.length = (r.uniforms.map fun u => u.2.bytes.length).sum
  aligned : ∀ name start stop, r.blockRange? name = some (start, stop) → 4 ∣ start ∧ 4 ∣ stop
  /-- Where no name comes twice, the ranges of all names are the block cut into pieces. -/
  partition : (r.uniforms.map (·.1)).Nodup → ∃ ranges, r.uniforms.map (fun u => r.blockRange? u.1) = ranges.map some ∧
    Consecutive 0 ranges r.block.length ∧ (ranges.Pairwise fun a b => a.2 ≤ b.1) ∧
    ∀ i < r.block.length, ∃ a ∈ ranges, a.1 ≤ i ∧ i < a.2

theorem Indexed.of_packed {r : RecordedDraw} (h : r.block = packed r.uniforms) : r.Indexed := by
  have found : ∀ {name start stop}, r.blockRange? name = some (start, stop) → ∃ before v after,
      r.uniforms = before ++ (name, v) :: after ∧ name ∉ before.map (·.1) ∧
      start = (packed before).length ∧ stop = start + v.bytes.length := by
    intro name start stop hrange
    simpa using rangeFrom_eq_some.mp hrange
  refine ⟨fun name => ?_, fun name start stop hrange => ?_, h ▸ length_packed _, fun name start stop hrange => ?_,
    fun hnames => ?_⟩
  · rw [blockRange?, uniform?, isSome_rangeFrom]
  · obtain ⟨before, v, after, hsplit, hnew, rfl, rfl⟩ := found hrange
    have hblock : r.block = packed before ++ (v.bytes ++ packed after) := by
      rw [h, hsplit, packed_append, packed_cons]
    refine ⟨Nat.le_add_right _ _, ?_, v, ?_, ?_⟩
    · rw [hblock, List.length_append, List.length_append]
      omega
    · rw [uniform?, List.lookup_eq_some_iff]
      refine ⟨before, after, hsplit, fun u hu => ?_⟩
      have hne : name ≠ u.1 := fun heq => hnew (heq ▸ List.mem_map_of_mem hu)
      simpa using hne
    · rw [hblock, List.take_length_add_append, List.take_left, List.drop_left]
  · obtain ⟨before, v, after, -, -, rfl, rfl⟩ := found hrange
    exact ⟨four_dvd_length_packed before, Nat.dvd_add (four_dvd_length_packed before) v.four_dvd_length⟩
  · have hranges : Consecutive 0 (ranges 0 r.uniforms) r.block.length := by
      simpa [h] using consecutive_ranges 0 r.uniforms
    exact ⟨_, map_rangeFrom 0 hnames, hranges, hranges.disjoint, fun i hi => hranges.covers (Nat.zero_le i) hi⟩

end RecordedDraw

/-! ### Recorded draws -/

namespace ReferenceDevice

variable {d d' : ReferenceDevice}

theorem indexed_recordOf (call : DrawCall) (label : String) : (recordOf call label).Indexed := .of_packed rfl

/-- A call leaves the draws recorded as they are, drops them or records one. -/
theorem Call.draws_after (q : Call) (d : ReferenceDevice) : (q.after d).draws = d.draws ∨ (q.after d).draws = [] ∨
    ∃ call label, (q.after d).draws = d.draws ++ [recordOf call label] := by
  rw [Call.after_eq]
  cases q with
  | upload i => exact .inl rfl
  | reject marker => exact .inl rfl
  | clearRecords => exact .inr (.inl rfl)
  | operation op =>
    cases op with
    | compileProgram label source =>
      refine .inl ?_
      change (d.compileProgram label source).2.draws = d.draws
      unfold ReferenceDevice.compileProgram
      split <;> rfl
    | createTexture kind =>
      refine .inl ?_
      change (d.createTexture kind).2.draws = d.draws
      unfold ReferenceDevice.createTexture
      split <;> rfl
    | placeholderTexture =>
      refine .inl ?_
      change d.placeholderTexture.2.draws = d.draws
      unfold ReferenceDevice.placeholderTexture
      split <;> rfl
    | draw call =>
      change (Device.draw d call).2.draws = _ ∨ (Device.draw d call).2.draws = _ ∨
        ∃ call' label, (Device.draw d call).2.draws = _
      rcases hdraw : Device.draw d call with ⟨e | ⟨⟩, d'⟩
      · exact .inl (congrArg ReferenceDevice.draws (draw_error hdraw))
      · obtain ⟨label, hdraws⟩ := draws_draw hdraw
        exact .inr (.inr ⟨call, label, hdraws⟩)
    | copy source target => exact .inl (draws_copy rfl)
    | _ => exact .inl rfl

theorem Call.indexed_after {q : Call} (h : ∀ r ∈ d.draws, r.Indexed) : ∀ r ∈ (q.after d).draws, r.Indexed := by
  rcases q.draws_after d with hdraws | hdraws | ⟨call, label, hdraws⟩ <;> rw [hdraws]
  · exact h
  · nofun
  · intro r hr
    rcases List.mem_append.mp hr with hr | hr
    · exact h r hr
    · exact List.mem_singleton.mp hr ▸ indexed_recordOf call label

theorem Call.indexed_afterAll (calls : List Call) (h : ∀ r ∈ d.draws, r.Indexed) :
    ∀ r ∈ (Call.afterAll d calls).draws, r.Indexed := by
  induction calls generalizing d with
  | nil => exact h
  | cons q rest ih => exact ih (Call.indexed_after h)

/-- A draw with any uniforms records one draw with these uniforms, whose index fits its block, and so it is for all
    draws that a device has recorded after any calls. -/
theorem draws_indexed (size : Nat × Nat) (calls : List Call) :
    (∀ r ∈ (Call.afterAll (new size) calls).draws, r.Indexed) ∧
    ∀ (d d' : ReferenceDevice) (call : DrawCall), Device.draw d call = (.ok (), d') →
      ∃ r : RecordedDraw, d'.draws = d.draws ++ [r] ∧ r.uniforms = call.uniforms ∧ r.Indexed := by
  refine ⟨Call.indexed_afterAll calls nofun, fun d d' call h => ?_⟩
  obtain ⟨label, hdraws⟩ := draws_draw h
  exact ⟨_, hdraws, rfl, indexed_recordOf call label⟩

/-- Of two values of one name the first is found, and a value behind the second is found behind it. -/
theorem draws_indexed_repeated :
    let d : ReferenceDevice := { new (1, 1) with programs := [(⟨1⟩, ⟨"tint", "", []⟩)] }
    let uniforms : List NamedBinding :=
      [("amount", .float .zero), ("size", .vec2 .zero .zero), ("amount", .int 3), ("tint", .vec3 .zero .zero .zero)]
    ∃ r : RecordedDraw, (Device.draw d ⟨⟨1⟩, .display, uniforms⟩).2.draws = [r] ∧
      r.blockRange? "amount" = some (0, 4) ∧ r.uniform? "amount" = some (.float .zero) ∧
      r.blockRange? "tint" = some (16, 28) ∧ (r.block.take 28).drop 16 = (Binding.vec3 .zero .zero .zero).bytes ∧
      r.block.length = 28 := by
  intro d uniforms
  obtain ⟨r, hdraws, huniforms, hr⟩ := (draws_indexed (1, 1) []).2 d _ ⟨⟨1⟩, .display, uniforms⟩ rfl
  have hamount : r.blockRange? "amount" = some (0, 4) := by
    rw [RecordedDraw.blockRange?, huniforms]
    rfl
  have htint : r.blockRange? "tint" = some (16, 28) := by
    rw [RecordedDraw.blockRange?, huniforms]
    rfl
  have hvalue : r.uniform? "tint" = some (.vec3 .zero .zero .zero) := by
    rw [RecordedDraw.uniform?, huniforms]
    rfl
  obtain ⟨-, -, v, hv, hbytes⟩ := hr.bytes _ _ _ htint
  obtain rfl := Option.some.inj (hv.symm.trans hvalue)
  refine ⟨r, hdraws, hamount, ?_, htint, hbytes, ?_⟩
  · rw [RecordedDraw.uniform?, huniforms]
    rfl
  · rw [hr.length, huniforms]
    rfl

end ReferenceDevice
end FxStack
