import FxStack.Proofs.Device.Service
import FxStack.Proofs.Program.Reading
import FxStack.Proofs.Stack.Acceptance

/-! Which uniforms a compiled program has. A name that a line declares counts as used if it stands anywhere else in the
    text, and comments are part of the text. Main statement: `ReferenceDevice.hasUniform_compiled`. -/

namespace FxStack

/-! ### Words of lines -/

namespace ActiveUniforms
variable {text l type n w : List Char} {c : Char}

theorem tokens_append_cons (h : isNameChar c = false) (as bs : List Char) :
    tokens (as ++ c :: bs) = tokens as ++ tokens bs :=
  Text.runs_append_cons h as bs

theorem tokens_cons (h : isNameChar c = false) (cs : List Char) : tokens (c :: cs) = tokens cs :=
  tokens_append_cons h [] cs

theorem tokens_concat (h : isNameChar c = false) (cs : List Char) : tokens (cs ++ [c]) = tokens cs := by
  rw [tokens_append_cons h]
  exact List.append_nil _

theorem tokens_of_chars (hne : n ≠ []) (h : ∀ c ∈ n, isNameChar c = true) : tokens n = [n] :=
  Text.runs_eq_singleton hne h

theorem not_isNameChar_of_isBlank (h : Text.isBlank c = true) : isNameChar c = false := by
  by_contra hname
  rw [Bool.not_eq_false] at hname
  rw [not_isBlank_of_isNameChar hname] at h
  cases h

/-- The words of lines, in code and in comments. -/
def words : LineReading (List Char) where
  ofLine := tokens
  ofLine_nil := rfl
  ofLine_cons h l := tokens_cons (not_isNameChar_of_isBlank h) l
  ofLine_concat h l := tokens_concat (not_isNameChar_of_isBlank h) l

/-- No word goes over the end of a line. -/
theorem read_words (cs : List Char) : words.read cs = tokens cs := by
  induction cs using Text.line_induction with
  | last l hl => exact words.read_of_not_mem hl
  | more l cs hl ih =>
    rw [words.read_append_newline hl, ih, tokens_append_cons (by decide)]
    rfl

theorem tokens_trim (cs : List Char) : tokens (Text.trim cs) = tokens cs := by
  rw [← read_words, words.read_trim, read_words]

theorem tokens_line (l : List Char) : tokens l = tokens (Text.beforeComment l) ++ tokens (Text.comment l) := by
  conv_lhs => rw [← Text.beforeComment_append_comment l]
  rcases Text.comment_cases l with h | h
  · rw [h, List.append_nil]
    exact (List.append_nil _).symm
  · obtain ⟨cs, hcs⟩ := List.head?_eq_some_iff.mp h
    rw [hcs, tokens_append_cons (by decide), tokens_cons (by decide)]

/-- The words of a text outside its comments, and those inside. -/
def codeTokens (text : List Char) : List (List Char) := (Text.lines text).flatMap fun l => tokens (Text.beforeComment l)

def commentTokens (text : List Char) : List (List Char) := (Text.lines text).flatMap fun l => tokens (Text.comment l)

theorem mem_tokens : w ∈ tokens text ↔ w ∈ codeTokens text ∨ w ∈ commentTokens text := by
  rw [← read_words]
  simp only [LineReading.read, codeTokens, commentTokens, List.mem_flatMap, ← exists_or, ← and_or_left, ← List.mem_append,
    ← tokens_line]
  rfl

/-! ### Names that count as used -/

theorem mem_ofText_iff : String.ofList n ∈ ofText text ↔
    n ∈ (Text.lines text).filterMap declared? ∧ 1 < (tokens text).count n := by
  unfold ofText
  simp only [List.mem_filterMap]
  constructor
  · rintro ⟨m, hm, hname⟩
    split at hname
    · next hcount =>
      obtain rfl := String.ofList_injective (Option.some.inj hname)
      exact ⟨hm, hcount⟩
    · cases hname
  · rintro ⟨hn, hcount⟩
    exact ⟨n, hn, if_pos hcount⟩

theorem Declares.tokens_eq (h : Declares l type n) : tokens l = "uniform".toList :: tokens type ++ [n] := by
  have hkeyword : keyword = "uniform".toList ++ [' '] := rfl
  have huniform : tokens "uniform".toList = ["uniform".toList] := rfl
  rw [← tokens_trim, h.spelled, hkeyword, List.append_assoc, List.singleton_append, tokens_append_cons (by decide),
    tokens_concat (by decide), tokens_append_cons (by decide), tokens_of_chars h.nonempty h.chars, huniform]
  rfl

/-- A declared name counts as used if it stands on another line, or twice on its own. -/
theorem Declares.mem_ofText (h : Declares l type n) {before after : List (List Char)}
    (hlines : Text.lines text = before ++ l :: after) :
    String.ofList n ∈ ofText text ↔
      n = "uniform".toList ∨ n ∈ tokens type ∨ ∃ m ∈ before ++ after, n ∈ tokens m := by
  have hdeclared : n ∈ (Text.lines text).filterMap declared? := by
    rw [hlines]
    exact List.mem_filterMap.mpr ⟨l, List.mem_append_right _ List.mem_cons_self, h.declared?_eq⟩
  have htokens : tokens text = before.flatMap tokens ++ (tokens l ++ after.flatMap tokens) := by
    rw [← read_words, LineReading.read, hlines, List.flatMap_append, List.flatMap_cons]
    rfl
  have hcount : (tokens text).count n =
      1 + ("uniform".toList :: (tokens type ++ (before ++ after).flatMap tokens)).count n := by
    rw [htokens, h.tokens_eq, List.flatMap_append]
    simp only [List.count_append, List.cons_append, List.count_cons, List.count_nil, beq_self_eq_true, if_true]
    omega
  rw [mem_ofText_iff, and_iff_right hdeclared, hcount, Nat.lt_add_right_iff_pos, List.count_pos_iff]
  simp only [List.mem_cons, List.mem_append, List.mem_flatMap]

end ActiveUniforms

/-! ### Words of a pass -/

open ActiveUniforms

namespace Member
variable {m : Member} {w : List Char}

/-- The word stands in the code or in a comment of a fragment of the member, or in the name above the fragment. -/
def Mentions (m : Member) (w : List Char) : Prop :=
  ∃ t ∈ m.effect.uvCode.toList ++ [m.effect.code], Text.trim (t.instantiate m.index).toList ≠ [] ∧
    (w ∈ codeTokens (t.instantiate m.index).toList ∨ w ∈ commentTokens (t.instantiate m.index).toList ∨
      w ∈ tokens m.effect.name.toList)

theorem mem_tokens_header (hw : w.head?.any Char.isDigit = false) :
    w ∈ tokens m.header.toList ↔ w ∈ tokens m.effect.name.toList := by
  have hindex : w ∉ tokens (toString m.index).toList := by
    have hchars : ∀ c ∈ (toString m.index).toList, isNameChar c = true := fun c hc => by
      simp [isNameChar, Char.isAlphanum, isDigit_of_mem_toString hc]
    rw [tokens_of_chars (toList_toString_ne_nil _) hchars, List.mem_singleton]
    rintro rfl
    obtain ⟨c, cs, hcs⟩ := List.exists_cons_of_ne_nil (toList_toString_ne_nil m.index)
    have hdigit : c.isDigit = true := isDigit_of_mem_toString (hcs ▸ List.mem_cons_self)
    rw [hcs, List.head?_cons, Option.any_some, hdigit] at hw
    cases hw
  rw [toList_header, tokens_cons (by decide), tokens_cons (by decide), tokens_cons (by decide),
    tokens_append_cons (by decide), tokens_cons (by decide), List.mem_append, or_iff_left hindex]

theorem mem_tokens_block (hw : w.head?.any Char.isDigit = false) (t : Template) :
    w ∈ tokens (m.block t).toList ↔ Text.trim (t.instantiate m.index).toList ≠ [] ∧
      (w ∈ codeTokens (t.instantiate m.index).toList ∨ w ∈ commentTokens (t.instantiate m.index).toList ∨
        w ∈ tokens m.effect.name.toList) := by
  rw [← or_assoc, ← mem_tokens, ← read_words, words.read_block, read_words, read_words]
  by_cases hblank : Text.trim (t.instantiate m.index).toList = []
  · have hnone : tokens (t.instantiate m.index).toList = [] := by rw [← tokens_trim, hblank]; rfl
    simp [hblank, hnone]
  · rw [if_neg hblank, List.mem_append, mem_tokens_header hw, or_comm, and_iff_right hblank]

theorem mentions_iff (hw : w.head?.any Char.isDigit = false) :
    m.Mentions w ↔ w ∈ tokens m.uvBlock.toList ∨ w ∈ tokens m.colorBlock.toList := by
  unfold Mentions colorBlock uvBlock
  simp only [← mem_tokens_block hw, List.mem_append, List.mem_singleton, Option.mem_toList]
  cases huv : m.effect.uvCode with
  | none =>
    have hnone : tokens [] = [] := rfl
    simp [hnone]
  | some t => simp

end Member

/-- The word stands in the code or in a comment of a shared function, or a member mentions it. -/
def Pass.Mentions (q : Pass) (w : List Char) : Prop :=
  (∃ f ∈ q.functions, w ∈ codeTokens f.body.toList ∨ w ∈ commentTokens f.body.toList) ∨ ∃ m ∈ q.members, m.Mentions w

/-- The uniforms that every program declares and no fixed code uses. -/
def GlobalUniform.unused : List String := [inverseResolution, depthTexture, depthRange, random]

namespace Program
variable {n : String}

theorem count_unused (hn : n ∈ GlobalUniform.unused) :
    (tokens preamble.toList).count n.toList = 1 ∧ n.toList ∉ tokens mainStart.toList ∧
      n.toList ∉ tokens sampleLine.toList ∧ n.toList ∉ tokens mainEnd.toList := by
  revert n
  unfold tokens preamble mainStart sampleLine mainEnd
  simp only [Text.runs_eq_splitOnP]
  repeat rw [String.toList_append]
  repeat rw [String.toList_ofList]
  decide +kernel

theorem declared_unused (hn : n ∈ GlobalUniform.unused) : n.toList ∈ (Text.lines preamble.toList).filterMap declared? := by
  revert n
  unfold preamble
  repeat rw [String.toList_append]
  repeat rw [String.toList_ofList]
  decide +kernel

theorem unused_notMem_declaration (hn : n ∈ GlobalUniform.unused) {u : Uniform}
    (h : Effect.isIdentifier u.baseName = true) (i : Nat) : n.toList ∉ tokens (u.declaration i).toList := by
  have hkeyword : ∀ n ∈ GlobalUniform.unused, n.toList ≠ "uniform".toList := by decide
  have htype : ∀ n ∈ GlobalUniform.unused, n.toList ∉ tokens u.type.name.toList := by
    cases u.type <;> decide
  have hknown : GlobalUniform.unused ⊆ GlobalUniform.names := by decide
  have hname : n.toList ≠ (u.nameAt i).toList := fun heq =>
    GlobalUniform.nameAt_notMem_names u i (String.toList_inj.mp heq ▸ hknown hn)
  rw [(Uniform.declares h i).tokens_eq, List.cons_append, List.mem_cons, List.mem_append, List.mem_singleton]
  exact fun hmem => hmem.elim (hkeyword n hn) fun hmem => hmem.elim (htype n hn) hname

variable {c : Catalog} {entries : List Entry} {q : Pass}

/-- In the program of a pass such a uniform counts as used where the pass mentions it anywhere. -/
theorem unused_mem_ofText (hn : n ∈ GlobalUniform.unused) (hc : c.Built)
    (hq : q ∈ (Compilation.ofEntries c entries).passes) :
    n ∈ ofText (ofPass q).toList ↔ q.Mentions n.toList := by
  have hdeclared : n.toList ∈ (Text.lines (ofPass q).toList).filterMap declared? := by
    unfold ofPass
    simp only [String.toList_append, List.append_assoc]
    rw [wholeLines_preamble.lines_append, List.filterMap_append]
    exact List.mem_append_left _ (declared_unused hn)
  have declarations : n.toList ∉ q.declarations.flatMap fun d => tokens d.toList := by
    intro hmem
    obtain ⟨d, hd, hmem⟩ := List.mem_flatMap.mp hmem
    obtain ⟨u, i, hu, rfl⟩ := Compilation.of_mem_declarations hc hq hd
    exact unused_notMem_declaration hn hu i hmem
  obtain ⟨hpreamble, hstart, hsample, hend⟩ := count_unused hn
  have hcount : (tokens (ofPass q).toList).count n.toList =
      1 + (q.functions.flatMap (fun f => tokens f.body.toList) ++ q.members.flatMap (fun m => tokens m.uvBlock.toList) ++
        q.members.flatMap (fun m => tokens m.colorBlock.toList)).count n.toList := by
    rw [← read_words, words.read_ofPass]
    simp only [read_words, List.count_append, hpreamble, List.count_eq_zero.mpr declarations, List.count_eq_zero.mpr hstart,
      List.count_eq_zero.mpr hsample, List.count_eq_zero.mpr hend]
    omega
  have hw : ∀ n ∈ GlobalUniform.unused, n.toList.head?.any Char.isDigit = false := by decide
  conv_lhs => rw [← String.ofList_toList (s := n)]
  rw [mem_ofText_iff, and_iff_right hdeclared, hcount, Nat.lt_add_right_iff_pos, List.count_pos_iff, Pass.Mentions]
  simp only [List.mem_append, List.mem_flatMap, ← mem_tokens, Member.mentions_iff (hw n hn), and_or_left, exists_or, or_assoc]

end Program

/-! ### Compiled programs -/

namespace ReferenceDevice

/-- A program that has just been compiled has the uniforms that its text makes active. -/
theorem Sound.hasUniform_iff {size : Nat × Nat} {issued : List Nat} {d d' : ReferenceDevice}
    (sound : Sound size issued d) {label source : String} {p : ProgramId}
    (h : Device.compileProgram d label source = (.ok p, d')) (n : String) :
    Device.hasUniform d' p n = true ↔ n ∈ ofText source.toList := by
  obtain ⟨rfl, rfl⟩ := compileProgram_eq_ok h
  have hfresh : d.programs.lookup ⟨d.nextNumber⟩ = none := by
    cases hx : d.programs.lookup ⟨d.nextNumber⟩ with
    | none => rfl
    | some x => exact absurd (sound.programs ⟨d.nextNumber⟩ (Option.isSome_of_eq_some hx)) sound.notMem
  show ReferenceDevice.hasUniform _ _ n = true ↔ _
  unfold ReferenceDevice.hasUniform program?
  rw [List.lookup_append, hfresh]
  simp

/-- A uniform that is declared on a line of its own is active if its name stands on another line, be it in code or in a
    comment; and so it is if its declaration says it twice. In the program of a pass a uniform that no fixed code uses is
    active where a function, a fragment or the name above a fragment says its name, and the depth texture is bound for
    just those programs, if there is a depth buffer. -/
theorem hasUniform_compiled (size : Nat × Nat) (calls : List Call) {label source : String} {p : ProgramId}
    {d : ReferenceDevice} (h : Device.compileProgram (Call.afterAll (new size) calls) label source = (.ok p, d)) :
    (∀ before l after type n, Text.lines source.toList = before ++ l :: after → Declares l type n →
      (Device.hasUniform d p (String.ofList n) = true ↔ n = "uniform".toList ∨ n ∈ tokens type ∨
        ∃ m ∈ before ++ after, n ∈ tokens (Text.beforeComment m) ∨ n ∈ tokens (Text.comment m))) ∧
    (∀ (c : Catalog) (entries : List Entry) (q : Pass), c.Built → q ∈ (Compilation.ofEntries c entries).passes →
      source = Program.ofPass q →
      (∀ n ∈ GlobalUniform.unused, (Device.hasUniform d p n = true ↔ q.Mentions n.toList)) ∧
      ∀ frame : FrameContext, frame.depthBindings d p ≠ [] ↔
        frame.depth.isSome ∧ q.Mentions GlobalUniform.depthTexture.toList) := by
  have active := ((Sound.new size).serveAll calls).hasUniform_iff h
  refine ⟨fun before l after type n hlines hdeclares => ?_, fun c entries q hc hq hsource => ?_⟩
  · rw [active, hdeclares.mem_ofText hlines]
    refine or_congr_right (or_congr_right (exists_congr fun m => and_congr_right fun _ => ?_))
    rw [← List.mem_append, ← tokens_line]
  · have mentioned : ∀ n ∈ GlobalUniform.unused, (Device.hasUniform d p n = true ↔ q.Mentions n.toList) := by
      intro n hn
      rw [active, hsource]
      exact Program.unused_mem_ofText hn hc hq
    refine ⟨mentioned, fun frame => ?_⟩
    rw [← mentioned GlobalUniform.depthTexture (by decide)]
    unfold FrameContext.depthBindings
    cases frame.depth with
    | none => simp
    | some depth =>
      cases Device.hasUniform d p GlobalUniform.depthTexture <;> simp [DepthBuffer.bindings]

/-! ### Names in comments -/

/-- A program with three uniforms: code says the name of the first, a comment that of the second. -/
def remarked : String :=
  "uniform float u_gain;\nuniform float u_bias;\nuniform float u_size;\nvoid main() \x7b\n"
    ++ "    gl_FragColor *= u_gain; // no u_bias\n\x7d\n"

theorem lines_remarked : Text.lines remarked.toList =
    ["uniform float u_gain;".toList, "uniform float u_bias;".toList, "uniform float u_size;".toList,
      "void main() \x7b".toList, "    gl_FragColor *= u_gain; // no u_bias".toList, "\x7d".toList] := by
  unfold remarked
  rw [String.toList_append]
  repeat rw [String.toList_ofList]
  decide +kernel

theorem accepts_remarked : (new (1, 1)).Accepts remarked := by
  refine ⟨nofun, ?_, ?_⟩
  · unfold remarked
    rw [String.toList_append]
    repeat rw [String.toList_ofList]
    decide +kernel
  · unfold remarked
    rw [String.toList_append]
    repeat rw [String.toList_ofList]
    decide +kernel

theorem declares_remarked : ∀ n ∈ ["u_gain", "u_bias", "u_size"],
    Declares ("uniform float " ++ n ++ ";").toList "float".toList n.toList := by
  intro n hn
  have hspelled : ∀ n ∈ ["u_gain", "u_bias", "u_size"],
      Text.trim ("uniform float " ++ n ++ ";").toList = keyword ++ ("float".toList ++ ' ' :: n.toList ++ [';']) := by
    decide +kernel
  have hchars : ∀ n ∈ ["u_gain", "u_bias", "u_size"], n.toList ≠ [] ∧ n.toList.all isNameChar = true := by decide
  exact ⟨hspelled n hn, (hchars n hn).1, List.all_eq_true.mp (hchars n hn).2⟩

/-- The first two are active, the third is not. -/
theorem hasUniform_compiled_remarked : ∃ p d,
    Device.compileProgram (Call.afterAll (new (1, 1)) []) "remarked" remarked = (.ok p, d) ∧
      Device.hasUniform d p "u_gain" = true ∧ Device.hasUniform d p "u_bias" = true ∧
      Device.hasUniform d p "u_size" = false := by
  obtain ⟨p, d, h⟩ := accepts_remarked.compiles "remarked"
  have active := (hasUniform_compiled (1, 1) [] h).1
  have hlines := lines_remarked
  refine ⟨p, d, h, ?_, ?_, ?_⟩
  · refine (active [] _ _ _ _ hlines (declares_remarked "u_gain" (by decide))).mpr (.inr (.inr ?_))
    decide +kernel
  · refine (active ["uniform float u_gain;".toList] _ _ _ _ hlines (declares_remarked "u_bias" (by decide))).mpr
      (.inr (.inr ?_))
    decide +kernel
  · rw [← Bool.not_eq_true]
    refine mt (active ["uniform float u_gain;".toList, "uniform float u_bias;".toList] _ _ _ _ hlines
      (declares_remarked "u_size" (by decide))).mp ?_
    decide +kernel

/-- An effect that has the name of the depth texture and does not read it. -/
def depthless : Effect := (Effect.ofCode (.ofMarked '@' "color.rgb *= 0.5;")).named GlobalUniform.depthTexture

/-- The one pass with the effect alone. -/
def depthlessPass : Pass := ⟨[⟨0, ⟨1⟩, depthless⟩], [], "", none⟩

theorem exists_depthlessPass : ∃ c : Catalog, c.Built ∧
    (Compilation.ofEntries c [⟨⟨1⟩, GlobalUniform.depthTexture, .empty⟩]).passes = [depthlessPass] := by
  have hr : (Catalog.empty ⟨0⟩).register GlobalUniform.depthTexture (.ofCode (.ofMarked '@' "color.rgb *= 0.5;")) =
      .ok (none, { Catalog.empty ⟨0⟩ with
        effects := KeyMap.empty.insert GlobalUniform.depthTexture depthless, generation := 1 }) :=
    Catalog.register_eq_ok.mpr ⟨Effect.validate_eq_ok.mp rfl, rfl, rfl⟩
  exact ⟨_, .register (.empty _) hr, rfl⟩

/-- A comment alone makes a uniform active, and so does the comment with the name of an effect, though neither code nor
    any comment of the effect says the name. -/
theorem comment_activates :
    (∃ p d before l after, Device.compileProgram (new (1, 1)) "remarked" remarked = (.ok p, d) ∧
      Text.lines remarked.toList = before ++ l :: after ∧ Declares l "float".toList "u_bias".toList ∧
      (∀ m ∈ before ++ after, "u_bias".toList ∉ tokens (Text.beforeComment m)) ∧
      Device.hasUniform d p "u_bias" = true) ∧
    ∃ c : Catalog, c.Built ∧
      (Compilation.ofEntries c [⟨⟨1⟩, GlobalUniform.depthTexture, .empty⟩]).passes = [depthlessPass] ∧
      GlobalUniform.depthTexture ∈ ofText (Program.ofPass depthlessPass).toList ∧ depthlessPass.functions = [] ∧
      ∀ m ∈ depthlessPass.members, m.effect.uvCode = none ∧
        GlobalUniform.depthTexture.toList ∉ tokens (m.effect.code.instantiate m.index).toList := by
  have unread : GlobalUniform.depthTexture.toList ∉ tokens (depthless.code.instantiate 0).toList := by
    unfold depthless Template.ofMarked
    rw [String.toList_ofList]
    decide +kernel
  refine ⟨?_, ?_⟩
  · obtain ⟨p, d, h⟩ := accepts_remarked.compiles "remarked"
    refine ⟨p, d, ["uniform float u_gain;".toList], _, _, h, lines_remarked, declares_remarked "u_bias" (by decide),
      by decide +kernel, ?_⟩
    rw [(Sound.new (1, 1)).hasUniform_iff h]
    have hlines : Text.lines remarked.toList = ["uniform float u_gain;".toList] ++ _ :: _ := lines_remarked
    exact ((declares_remarked "u_bias" (by decide)).mem_ofText hlines).mpr (.inr (.inr (by decide +kernel)))
  · obtain ⟨c, hc, hpasses⟩ := exists_depthlessPass
    refine ⟨c, hc, hpasses, ?_, rfl, fun m hm => ?_⟩
    · have hq : depthlessPass ∈ (Compilation.ofEntries c [⟨⟨1⟩, GlobalUniform.depthTexture, .empty⟩]).passes := by
        rw [hpasses]
        exact List.mem_cons_self
      rw [Program.unused_mem_ofText (by decide) hc hq]
      refine .inr ⟨_, List.mem_cons_self, depthless.code, List.mem_cons_self, ?_, .inr (.inr (by decide +kernel))⟩
      unfold depthless Template.ofMarked
      rw [String.toList_ofList]
      decide +kernel
    · obtain rfl := List.mem_singleton.mp hm
      exact ⟨rfl, unread⟩

end ReferenceDevice
end FxStack
