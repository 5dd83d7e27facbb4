import FxStack.CommandLine.Options
import Mathlib.Data.List.Basic

/-! The arguments of the command line. They are read if they are complete options one after the other, and what they ask
    for is put together from left to right, a later value in the place of an earlier one. So arguments behind others are
    read as they are on their own, and neighbours that set different options may change places. Main statement:
    `Options.arguments_fold`. -/

namespace FxStack.CommandLine

/-! ### Integers -/

/-- The texts of an integer: digits, at least one of them, behind a plus sign or none. -/
def SpellsInteger (n : UInt64) (s : String) : Prop :=
  ∃ ds : List Char, ds ≠ [] ∧ (∀ c ∈ ds, c.isDigit = true) ∧ (s.toList = ds ∨ s.toList = '+' :: ds) ∧
    Nat.ofDigitChars 10 ds 0 = n.toNat

theorem le_ofDigitChars (ds : List Char) : ∀ m : Nat, m ≤ Nat.ofDigitChars 10 ds m := by
  induction ds with
  | nil => exact fun _ => Nat.le_refl _
  | cons d ds ih =>
    intro m
    rw [Nat.ofDigitChars_cons]
    exact Nat.le_trans (by omega) (ih _)

theorem isDigit_iff {c : Char} : c.isDigit = true ↔ '0' ≤ c ∧ c ≤ '9' := by
  simp only [Char.isDigit, Bool.and_eq_true, decide_eq_true_eq, ge_iff_le]
  rfl

theorem readDigits_eq_ok_iff {ds : List Char} {n : UInt64} : ∀ {m : Nat}, m < 0x10000000000000000 →
    (readDigits m ds = .ok n ↔ (∀ c ∈ ds, c.isDigit = true) ∧ Nat.ofDigitChars 10 ds m = n.toNat) := by
  induction ds with
  | nil =>
    intro m hm
    have hword : m % 2 ^ 64 = m := Nat.mod_eq_of_lt hm
    rw [readDigits, Except.ok.injEq, UInt64.ofNat_eq_iff_mod_eq_toNat, hword]
    simp
  | cons c ds ih =>
    intro m hm
    rw [readDigits, List.forall_mem_cons, Nat.ofDigitChars_cons]
    by_cases hc : '0' ≤ c ∧ c ≤ '9'
    · rw [if_pos hc]
      dsimp only
      have hdigit := isDigit_iff.mpr hc
      by_cases hlt : 10 * m + (c.toNat - '0'.toNat) < 0x10000000000000000
      · rw [if_pos hlt, ih hlt]
        simp [hdigit]
      · rw [if_neg hlt]
        -- A number that is too large stays so.
        have hle := le_ofDigitChars ds (10 * m + (c.toNat - '0'.toNat))
        have hmax := n.toNat_lt
        refine ⟨nofun, fun h => ?_⟩
        omega
    · rw [if_neg hc]
      exact ⟨nofun, fun h => absurd (isDigit_iff.mp h.1.1) hc⟩

theorem readInteger_plus {s : String} {ds : List Char} (h : s.toList = '+' :: ds) :
    readInteger s = if ds = [] then .error .invalidDigit else readDigits 0 ds := by
  unfold readInteger
  rw [h]
  cases ds <;> rfl

theorem readInteger_of_head? {s : String} (hne : s.toList ≠ []) (h : s.toList.head? ≠ some '+') :
    readInteger s = readDigits 0 s.toList := by
  unfold readInteger
  split <;> simp_all

/-- A plus sign in front of digits is left out. -/
theorem readInteger_eq_ok_iff {s : String} {n : UInt64} : readInteger s = .ok n ↔ SpellsInteger n s := by
  have hzero : 0 < 0x10000000000000000 := by decide
  have hplus {ds : List Char} (hdigits : ∀ c ∈ ds, c.isDigit = true) : ds.head? ≠ some '+' := fun hhead => by
    cases hdigits '+' (List.mem_of_mem_head? hhead)
  constructor
  · intro h
    by_cases hempty : s.toList = []
    · rw [readInteger, hempty] at h
      cases h
    by_cases hhead : s.toList.head? = some '+'
    · obtain ⟨ds, hs⟩ := List.head?_eq_some_iff.mp hhead
      rw [readInteger_plus hs] at h
      split at h
      · cases h
      · next hne =>
        obtain ⟨hdigits, hvalue⟩ := (readDigits_eq_ok_iff hzero).mp h
        exact ⟨ds, hne, hdigits, .inr hs, hvalue⟩
    · rw [readInteger_of_head? hempty hhead] at h
      obtain ⟨hdigits, hvalue⟩ := (readDigits_eq_ok_iff hzero).mp h
      exact ⟨s.toList, hempty, hdigits, .inl rfl, hvalue⟩
  · rintro ⟨ds, hne, hdigits, hs | hs, hvalue⟩
    · subst hs
      rw [readInteger_of_head? hne (hplus hdigits)]
      exact (readDigits_eq_ok_iff hzero).mpr ⟨hdigits, hvalue⟩
    · rw [readInteger_plus hs, if_neg hne]
      exact (readDigits_eq_ok_iff hzero).mpr ⟨hdigits, hvalue⟩

namespace Options

/-! ### Options one after the other -/

/-- The options after those that come later, which count where they say something. -/
def override (o later : Options) : Options where
  stack := later.stack.or o.stack
  input := later.input.or o.input
  output := later.output.or o.output
  catalog := later.catalog.or o.catalog
  dumpGlsl := later.dumpGlsl || o.dumpGlsl
  seed := later.seed.or o.seed
  verbose := later.verbose || o.verbose

@[simp]
theorem override_unset (o : Options) : o.override unset = o := by simp [override, unset]

@[simp]
theorem unset_override (o : Options) : unset.override o = o := by simp [override, unset]

theorem override_assoc (o p q : Options) : (o.override p).override q = o.override (p.override q) := by
  simp [override, Option.or_assoc, Bool.or_assoc]

/-! ### Complete options -/

/-- The options with a path. -/
inductive PathOption where
  | stack | input | output | catalog
deriving DecidableEq

def PathOption.flag : PathOption → String
  | .stack => "--stack"
  | .input => "--input"
  | .output => "--output"
  | .catalog => "--catalog"

/-- What one complete option asks for. -/
inductive Choice where
  | path (p : PathOption) (value : String)
  | seed (n : UInt64)
  | dumpGlsl
  | verbose

/-- The options that say nothing else. -/
def Choice.options : Choice → Options
  | .path .stack value => { unset with stack := some value }
  | .path .input value => { unset with input := some value }
  | .path .output value => { unset with output := some value }
  | .path .catalog value => { unset with catalog := some value }
  | .seed n => { unset with seed := some n }
  | .dumpGlsl => { unset with dumpGlsl := true }
  | .verbose => { unset with verbose := true }

/-- The options after some choices, one after the other. -/
def choose (o : Options) (choices : List Choice) : Options := choices.foldl (fun o c => o.override c.options) o

/-- The arguments that are a complete option. Any argument is a path, also one that looks like a flag. -/
inductive Spelled : Choice → List String → Prop
  | path (p : PathOption) (value : String) : Spelled (.path p value) [p.flag, value]
  | seed {n : UInt64} {text : String} (h : SpellsInteger n text) : Spelled (.seed n) ["--seed", text]
  | dumpGlsl : Spelled .dumpGlsl ["--dump-glsl"]
  | verbose : Spelled .verbose ["--verbose"]
  | v : Spelled .verbose ["-v"]

/-- Arguments that are complete options one after the other. -/
inductive Spells : List Choice → List String → Prop
  | nil : Spells [] []
  | cons {c : Choice} {cs : List Choice} {as bs : List String} (hc : Spelled c as) (hcs : Spells cs bs) :
      Spells (c :: cs) (as ++ bs)

/-- What is wrong with arguments that start with no complete option. -/
inductive Fault : ArgumentError → List String → Prop
  | refused {flag : String} (rest : List String) (hswitch : switch? flag = none) (hsetting : setting? flag = none) :
      Fault (refuse flag) (flag :: rest)
  | missingValue {flag : String} (hswitch : switch? flag = none) (hsetting : (setting? flag).isSome) :
      Fault (.missingValue flag) [flag]
  | badSeed {text : String} {e : IntegerError} (rest : List String) (h : readInteger text = .error e) :
      Fault (.badSeed text e) ("--seed" :: text :: rest)

variable {o : Options} {c : Choice} {cs : List Choice} {as bs args : List String} {e : ArgumentError}

/-! ### Reading -/

theorem switch?_flag (p : PathOption) : switch? p.flag = none := by cases p <;> rfl

theorem setting?_flag (p : PathOption) :
    setting? p.flag = some fun value => .ok fun o => o.override (Choice.path p value).options := by cases p <;> rfl

theorem switch?_seed : switch? "--seed" = none := rfl

theorem setting?_seed : setting? "--seed" = some fun v =>
    match readInteger v with
    | .ok n => .ok fun o => o.override (Choice.seed n).options
    | .error e => .error (.badSeed v e) := rfl

/-- A flag is an option on its own, takes a value, or is refused. -/
theorem flag_cases (flag : String) :
    (∃ c, Spelled c [flag]) ∨ flag = "--seed" ∨ (∃ p : PathOption, flag = p.flag) ∨
      (switch? flag = none ∧ setting? flag = none) := by
  by_cases hdump : flag = "--dump-glsl"
  · exact .inl ⟨.dumpGlsl, by rw [hdump]; exact .dumpGlsl⟩
  by_cases hverbose : flag = "--verbose"
  · exact .inl ⟨.verbose, by rw [hverbose]; exact .verbose⟩
  by_cases hv : flag = "-v"
  · exact .inl ⟨.verbose, by rw [hv]; exact .v⟩
  by_cases hseed : flag = "--seed"
  · exact .inr (.inl hseed)
  by_cases hpath : ∃ p : PathOption, flag = p.flag
  · exact .inr (.inr (.inl hpath))
  have hstack : flag ≠ "--stack" := fun h => hpath ⟨.stack, h⟩
  have hinput : flag ≠ "--input" := fun h => hpath ⟨.input, h⟩
  have houtput : flag ≠ "--output" := fun h => hpath ⟨.output, h⟩
  have hcatalog : flag ≠ "--catalog" := fun h => hpath ⟨.catalog, h⟩
  refine .inr (.inr (.inr ⟨?_, ?_⟩))
  · rw [switch?, if_neg hdump, if_neg (not_or.mpr ⟨hverbose, hv⟩)]
  · rw [setting?, if_neg hstack, if_neg hinput, if_neg houtput, if_neg hcatalog, if_neg hseed]

section
variable {flag : String} {set : String → Except ArgumentError (Options → Options)} (hswitch : switch? flag = none)
include hswitch

theorem read_refused (hsetting : setting? flag = none) : read o (flag :: args) = .error (refuse flag) := by
  rw [read.eq_def]
  simp only [hswitch, hsetting]

theorem read_missingValue (hsetting : setting? flag = some set) : read o [flag] = .error (.missingValue flag) := by
  rw [read.eq_def]
  simp only [hswitch, hsetting]

theorem read_setting (hsetting : setting? flag = some set) (value : String) :
    read o (flag :: value :: args) = match set value with
      | .ok f => read (f o) args
      | .error e => .error e := by
  rw [read.eq_def]
  cases hset : set value <;> simp only [hswitch, hsetting, hset]

end

theorem read_of_spelled (h : Spelled c as) : read o (as ++ args) = read (o.override c.options) args := by
  cases h with
  | path p value => exact read_setting (switch?_flag p) (setting?_flag p) value
  | @seed n text h =>
    have hread : read o ("--seed" :: text :: args) = _ := read_setting switch?_seed setting?_seed text
    rwa [readInteger_eq_ok_iff.mpr h] at hread
  | dumpGlsl => rfl
  | verbose => rfl
  | v => rfl

theorem read_of_spells (h : Spells cs as) : ∀ {o : Options}, read o (as ++ args) = read (o.choose cs) args := by
  induction h with
  | nil => exact fun {_} => rfl
  | cons hc _ ih =>
    intro o
    rw [List.append_assoc, read_of_spelled hc]
    exact ih

theorem read_of_fault (h : Fault e args) : read o args = .error e := by
  cases h with
  | refused rest hswitch hsetting => exact read_refused hswitch hsetting
  | missingValue hswitch hsetting =>
    obtain ⟨set, hset⟩ := Option.isSome_iff_exists.mp hsetting
    exact read_missingValue hswitch hset
  | badSeed rest h =>
    rw [read_setting switch?_seed setting?_seed, h]

/-- Arguments that are at fault stay so whatever follows, unless a value is missing. -/
theorem Fault.append (h : Fault e as) (hvalue : ∀ flag, e ≠ .missingValue flag) (bs : List String) : Fault e (as ++ bs) := by
  cases h with
  | refused rest hswitch hsetting => exact .refused (rest ++ bs) hswitch hsetting
  | missingValue => exact absurd rfl (hvalue _)
  | badSeed rest h => exact .badSeed (rest ++ bs) h

/-- Arguments start with a complete option, unless they start with a fault. -/
theorem exists_choice_or_fault (flag : String) (rest : List String) :
    (∃ c as bs, Spelled c as ∧ flag :: rest = as ++ bs) ∨ ∃ e, Fault e (flag :: rest) := by
  rcases flag_cases flag with ⟨c, hc⟩ | rfl | ⟨p, rfl⟩ | ⟨hswitch, hsetting⟩
  · exact .inl ⟨c, [flag], rest, hc, rfl⟩
  · cases rest with
    | nil => exact .inr ⟨_, .missingValue switch?_seed rfl⟩
    | cons text rest =>
      cases hread : readInteger text with
      | ok n => exact .inl ⟨_, _, rest, .seed (readInteger_eq_ok_iff.mp hread), rfl⟩
      | error e => exact .inr ⟨_, .badSeed rest hread⟩
  · cases rest with
    | nil => exact .inr ⟨_, .missingValue (switch?_flag p) (by rw [setting?_flag]; rfl)⟩
    | cons value rest => exact .inl ⟨_, _, rest, .path p value, rfl⟩
  · exact .inr ⟨_, .refused rest hswitch hsetting⟩

/-- Arguments are complete options up to their end or up to a fault. -/
theorem exists_spells (args : List String) :
    ∃ cs as, Spells cs as ∧ (args = as ∨ ∃ bs e, args = as ++ bs ∧ Fault e bs) := by
  induction hn : args.length using Nat.strongRecOn generalizing args with
  | ind n ih =>
    subst hn
    cases args with
    | nil => exact ⟨[], [], .nil, .inl rfl⟩
    | cons flag rest =>
      rcases exists_choice_or_fault flag rest with ⟨c, as, bs, hc, heq⟩ | ⟨e, he⟩
      · have hlt : bs.length < (flag :: rest).length := by
          rw [heq, List.length_append]
          cases hc <;> simp
        obtain ⟨cs, as', has', hstop⟩ := ih _ hlt bs rfl
        refine ⟨c :: cs, as ++ as', .cons hc has', ?_⟩
        rw [heq]
        rcases hstop with rfl | ⟨after, e, rfl, he⟩
        · exact .inl rfl
        · exact .inr ⟨after, e, (List.append_assoc ..).symm, he⟩
      · exact ⟨[], [], .nil, .inr ⟨_, e, rfl, he⟩⟩

/-! ### Results -/

theorem choose_eq (o : Options) (cs : List Choice) : o.choose cs = o.override (unset.choose cs) := by
  induction cs generalizing o with
  | nil => exact (override_unset o).symm
  | cons c cs ih =>
    show (o.override c.options).choose cs = o.override ((unset.override c.options).choose cs)
    rw [ih, ih (unset.override c.options), unset_override, override_assoc]

theorem read_eq_choose (h : Spells cs as) : read o as = .ok (o.choose cs) := by
  have hread : read o (as ++ []) = read (o.choose cs) [] := read_of_spells h
  rwa [List.append_nil] at hread

/-- What has been read before counts where nothing is said later. -/
theorem read_eq_map (o : Options) (args : List String) : read o args = (read unset args).map o.override := by
  obtain ⟨cs, as, hcs, rfl | ⟨bs, e, rfl, he⟩⟩ := exists_spells args
  · rw [read_eq_choose hcs, read_eq_choose hcs, choose_eq]
    rfl
  · rw [read_of_spells hcs, read_of_spells hcs, read_of_fault he, read_of_fault he]
    rfl

theorem ofArguments_eq_ok_iff : ofArguments args = .ok o ↔ ∃ cs, Spells cs args ∧ unset.choose cs = o := by
  rw [ofArguments]
  constructor
  · intro h
    obtain ⟨cs, as, hcs, rfl | ⟨bs, e, rfl, he⟩⟩ := exists_spells args
    · rw [read_eq_choose hcs] at h
      exact ⟨cs, hcs, Except.ok.inj h⟩
    · rw [read_of_spells hcs, read_of_fault he] at h
      cases h
  · rintro ⟨cs, hcs, rfl⟩
    exact read_eq_choose hcs

theorem ofArguments_append (h : ofArguments as = .ok o) : ofArguments (as ++ bs) = (ofArguments bs).map o.override := by
  obtain ⟨cs, hcs, rfl⟩ := ofArguments_eq_ok_iff.mp h
  rw [ofArguments, read_of_spells hcs, read_eq_map]
  rfl

/-- Arguments that are refused stay so whatever follows, unless a value is missing. -/
theorem ofArguments_append_error (h : ofArguments as = .error e) (hvalue : ∀ flag, e ≠ .missingValue flag) :
    ofArguments (as ++ bs) = .error e := by
  rw [ofArguments] at h ⊢
  obtain ⟨cs, as', hcs, rfl | ⟨rest, e', rfl, he⟩⟩ := exists_spells as
  · rw [read_eq_choose hcs] at h
    cases h
  · rw [read_of_spells hcs, read_of_fault he] at h
    obtain rfl := Except.error.inj h
    rw [List.append_assoc, read_of_spells hcs, read_of_fault (he.append hvalue bs)]

/-- Options of different names set different things. -/
theorem override_comm {d : Choice} (hc : Spelled c as) (hd : Spelled d bs) (h : as.head? ≠ bs.head?) :
    c.options.override d.options = d.options.override c.options := by
  cases hc with
  | path p value =>
    cases hd with
    | path q value' =>
      have hne : p ≠ q := fun heq => h (by rw [heq]; rfl)
      cases p <;> cases q <;> simp_all [override, Choice.options, unset]
    | _ => cases p <;> rfl
  | seed _ =>
    cases hd with
    | path q value' => cases q <;> rfl
    | seed _ => exact absurd rfl h
    | _ => rfl
  | _ =>
    cases hd with
    | path q value' => cases q <;> rfl
    | _ => rfl

/-- Neighbours of different names may change places wherever no value is missing before them. -/
theorem ofArguments_swap {d : Choice} {before : List String} (hbefore : ∀ flag, ofArguments before ≠ .error (.missingValue flag))
    (hc : Spelled c as) (hd : Spelled d bs) (h : as.head? ≠ bs.head?) (after : List String) :
    ofArguments (before ++ (as ++ (bs ++ after))) = ofArguments (before ++ (bs ++ (as ++ after))) := by
  cases hread : ofArguments before with
  | ok o =>
    have hpair : unset.read (as ++ (bs ++ after)) = unset.read (bs ++ (as ++ after)) := by
      rw [read_of_spelled hc, read_of_spelled hd, read_of_spelled hd, read_of_spelled hc, override_assoc, override_assoc,
        override_comm hc hd h]
    rw [ofArguments_append hread, ofArguments_append hread, ofArguments, hpair]
    rfl
  | error e =>
    have hvalue (flag : String) : e ≠ .missingValue flag := fun he => hbefore flag (by rw [hread, he])
    rw [ofArguments_append_error hread hvalue, ofArguments_append_error hread hvalue]

/-! ### Reading by indices -/

/-- The argument behind the flag with index `i`. -/
def valueAt (args : List String) (i : Nat) (flag : String) : Except ArgumentError String :=
  match args[i + 1]? with
  | some value => .ok value
  | none => .error (.missingValue flag)

/-- A reading on its way through the arguments: the index of the next one, and the options so far. -/
structure Reading where
  index : Nat
  options : Options

namespace Reading

def start : Reading := ⟨0, unset⟩

/-- One turn of a reading. There is none if no argument has its index. -/
def turn? (args : List String) (r : Reading) : Option (Except ArgumentError Reading) :=
  args[r.index]?.map fun flag =>
    match switch? flag, setting? flag with
    | some f, _ => .ok ⟨r.index + 1, f r.options⟩
    | none, none => .error (refuse flag)
    | none, some set =>
      match valueAt args r.index flag with
      | .error e => .error e
      | .ok value =>
        match set value with
        | .ok f => .ok ⟨r.index + 2, f r.options⟩
        | .error e => .error e

theorem drop_of_getElem? {i : Nat} {a : String} (h : args[i]? = some a) : args.drop i = a :: args.drop (i + 1) := by
  obtain ⟨hi, rfl⟩ := List.getElem?_eq_some_iff.mp h
  exact List.drop_eq_getElem_cons hi

/-- A turn keeps the result, and its index goes on. -/
theorem turn_spec {r : Reading} (hlt : r.index < args.length) :
    (∃ e, r.turn? args = some (.error e) ∧ read r.options (args.drop r.index) = .error e) ∨
    ∃ r', r.turn? args = some (.ok r') ∧ r.index < r'.index ∧
      read r.options (args.drop r.index) = read r'.options (args.drop r'.index) := by
  have hflag := List.getElem?_eq_getElem hlt
  generalize args[r.index] = flag at hflag
  rw [turn?, hflag, drop_of_getElem? hflag]
  cases hswitch : switch? flag with
  | some f =>
    refine .inr ⟨⟨r.index + 1, f r.options⟩, by simp [hswitch], Nat.lt_succ_self _, ?_⟩
    rw [read.eq_def]
    simp only [hswitch]
  | none =>
    cases hsetting : setting? flag with
    | none => exact .inl ⟨refuse flag, by simp [hswitch, hsetting], read_refused hswitch hsetting⟩
    | some set =>
      cases hvalue : args[r.index + 1]? with
      | none =>
        refine .inl ⟨.missingValue flag, by simp [hswitch, hsetting, valueAt, hvalue], ?_⟩
        rw [List.drop_of_length_le (List.getElem?_eq_none_iff.mp hvalue)]
        exact read_missingValue hswitch hsetting
      | some value =>
        rw [drop_of_getElem? hvalue, read_setting hswitch hsetting]
        cases hset : set value with
        | ok f =>
          exact .inr ⟨⟨r.index + 2, f r.options⟩, by simp [hswitch, hsetting, valueAt, hvalue, hset], by simp, rfl⟩
        | error e => exact .inl ⟨e, by simp [hswitch, hsetting, valueAt, hvalue, hset], rfl⟩

theorem index_lt_of_turn {r r' : Reading} (hlt : r.index < args.length) (h : r.turn? args = some (.ok r')) :
    r.index < r'.index := by
  rcases turn_spec hlt with ⟨e, hturn, -⟩ | ⟨r'', hturn, hindex, -⟩ <;> rw [hturn] at h <;> cases h
  exact hindex

/-- The options that a reading ends with, unless it ends with an error or asks for an argument that is not there. -/
def run (args : List String) (r : Reading) : Option (Except ArgumentError Options) :=
  if hlt : r.index < args.length then
    match h : r.turn? args with
    | none => none
    | some (.error e) => some (.error e)
    | some (.ok r') =>
      have := index_lt_of_turn hlt h
      run args r'
  else some (.ok r.options)
termination_by args.length - r.index

/-- A reading asks for no argument that is not there, and reads what lies before it. -/
theorem run_eq (args : List String) (r : Reading) : run args r = some (read r.options (args.drop r.index)) := by
  induction hn : args.length - r.index using Nat.strongRecOn generalizing r with
  | ind n ih =>
    rw [run]
    split
    · next hlt =>
      rcases turn_spec hlt with ⟨e, hturn, hread⟩ | ⟨r', hturn, hindex, hread⟩
      · rw [hread]
        split <;> simp_all
      · rw [hread, ← ih (args.length - r'.index) (by omega) r' rfl]
        split <;> simp_all
    · next hge =>
      rw [List.drop_of_length_le (Nat.le_of_not_lt hge)]
      rfl

end Reading

/-! ### Arguments -/

/-- Arguments are read by indices that all are there. What is read behind complete arguments is put over what they say.
    Arguments are accepted exactly if they are complete options one after the other, and then say what these say from left
    to right. Neighbours of different names may change places wherever an option can start. -/
theorem arguments_fold :
    (∀ args, Reading.run args .start = some (ofArguments args)) ∧
    (∀ as bs o, ofArguments as = .ok o → ofArguments (as ++ bs) = (ofArguments bs).map o.override) ∧
    (∀ args, (∃ o, ofArguments args = .ok o) ↔ ∃ cs, Spells cs args) ∧
    (∀ cs args, Spells cs args → ofArguments args = .ok (cs.foldl (fun o c => o.override c.options) unset)) ∧
    ∀ before as bs after c d, (∀ flag, ofArguments before ≠ .error (.missingValue flag)) →
      Spelled c as → Spelled d bs → as.head? ≠ bs.head? →
        ofArguments (before ++ (as ++ (bs ++ after))) = ofArguments (before ++ (bs ++ (as ++ after))) := by
  refine ⟨?_, ?_, ?_, ?_, ?_⟩
  · intro args
    exact Reading.run_eq args .start
  · intro as bs o h
    exact ofArguments_append h
  · intro args
    constructor
    · rintro ⟨o, h⟩
      obtain ⟨cs, hcs, -⟩ := ofArguments_eq_ok_iff.mp h
      exact ⟨cs, hcs⟩
    · rintro ⟨cs, hcs⟩
      exact ⟨_, ofArguments_eq_ok_iff.mpr ⟨cs, hcs, rfl⟩⟩
  · intro cs args hcs
    exact ofArguments_eq_ok_iff.mpr ⟨cs, hcs, rfl⟩
  · intro before as bs after c d hbefore hc hd h
    exact ofArguments_swap hbefore hc hd h after

/-- A path that looks like a flag, and a seed that is given again behind it or cannot be read there. -/
theorem arguments_fold_repeated :
    ofArguments ["--stack", "-v", "--seed", "+7"] = .ok { unset with stack := some "-v", seed := some 7 } ∧
    ofArguments (["--stack", "-v", "--seed", "+7"] ++ ["--verbose", "--seed", "9"]) =
      .ok { unset with stack := some "-v", seed := some 9, verbose := true } ∧
    ofArguments (["--stack", "-v", "--seed", "+7"] ++ ["--seed", "x"]) = .error (.badSeed "x" .invalidDigit) ∧
    (∃ cs, Spells cs ["--stack", "-v", "--seed", "+7"]) ∧
    ofArguments (["--dump-glsl"] ++ (["--stack", "-v"] ++ (["--seed", "+7"] ++ ["--help"]))) =
      ofArguments (["--dump-glsl"] ++ (["--seed", "+7"] ++ (["--stack", "-v"] ++ ["--help"]))) := by
  obtain ⟨-, happend, haccepts, -, hswap⟩ := arguments_fold
  have hfirst : ofArguments ["--stack", "-v", "--seed", "+7"] = .ok { unset with stack := some "-v", seed := some 7 } := by
    decide +kernel
  have hlater : ofArguments ["--verbose", "--seed", "9"] = .ok { unset with seed := some 9, verbose := true } := by
    decide +kernel
  have hrefused : ofArguments ["--seed", "x"] = .error (.badSeed "x" .invalidDigit) := by decide +kernel
  have hdump : ofArguments ["--dump-glsl"] = .ok { unset with dumpGlsl := true } := by decide +kernel
  have hseven : SpellsInteger 7 "+7" := readInteger_eq_ok_iff.mp (by decide +kernel)
  refine ⟨hfirst, ?_, ?_, (haccepts _).mp ⟨_, hfirst⟩, ?_⟩
  · rw [happend _ _ _ hfirst, hlater]
    rfl
  · rw [happend _ _ _ hfirst, hrefused]
    rfl
  · have hvalue (flag : String) : ofArguments ["--dump-glsl"] ≠ .error (.missingValue flag) := by
      rw [hdump]
      exact nofun
    exact hswap _ _ _ _ _ _ hvalue (.path .stack "-v") (.seed hseven) (by decide)

end Options

end FxStack.CommandLine
