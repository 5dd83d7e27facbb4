import FxStack.Proofs.Catalog.Registration
import FxStack.Proofs.Json.Decoding

/-! Calls on a catalog that is changed in place. What such a call has registered before it fails stays registered, and
    a text is read into a catalog by many registrations of which each can fail; but all effects of the text are looked
    at before the first of them, so that none does. Main statement: `Catalog.extend_or_unchanged`. -/

namespace FxStack

namespace Catalog

/-! ### Calls -/

/-- A computation on a catalog that is changed in place: a failure does not undo what was changed before it. -/
abbrev Update := EStateM Error Catalog

namespace Update

/-- Put an effect into the catalog, and give the one of that name that it replaces. -/
def register (name : String) (e : Effect) : Update (Option Effect) := do
  MonadExcept.ofExcept e.validate
  let old := (← get).effect? name
  modify fun c => { c with effects := c.effects.insert name (e.named name), generation := c.generation + 1 }
  return old

def registerFunction (name body : String) : Update Unit := modify (·.registerFunction name body)

/-- Register the effects of a list until one is refused. -/
def registerAll (es : List (String × Effect)) : Update Unit := es.forM fun e => discard (register e.1 e.2)

/-- Look at all effects of a file, then register its functions, then its effects. -/
def extendWith (file : CatalogExtension) : Update Unit := do
  file.effects.values.forM fun e => MonadExcept.ofExcept e.validate
  file.functions.toList.forM fun f => registerFunction f.1 f.2
  registerAll file.effects.toList

def extend (text : String) : Update Unit := do
  let file ← MonadExcept.ofExcept ((CatalogExtension.ofText text).mapError .json)
  extendWith file

end Update

/-- A call that changes a catalog. -/
inductive Call
  | extend (text : String)
  | register (name : String) (e : Effect)
  | registerFunction (name body : String)

namespace Call

def update : Call → Update Unit
  | .extend text => .extend text
  | .register name e => discard (.register name e)
  | .registerFunction name body => .registerFunction name body

/-- The catalog after the call, as a catalog of its own. -/
def apply : Call → Catalog → Except Error Catalog
  | .extend text, c => c.extend text
  | .register name e, c => (c.register name e).map (·.2)
  | .registerFunction name body, c => .ok (c.registerFunction name body)

end Call
end Catalog

/-- The registrations of a file: its functions and then its effects, each in the order of their names. -/
def CatalogExtension.calls (file : CatalogExtension) : List Catalog.Call :=
  file.functions.toList.map (fun f => .registerFunction f.1 f.2) ++ file.effects.toList.map (fun e => .register e.1 e.2)

namespace Catalog

/-! ### Whole files -/

/-- The catalog with the functions and effects of two lists. -/
def adding (c : Catalog) (fs : List (String × String)) (es : List (String × Effect)) : Catalog where
  id := c.id
  effects := es.foldl (fun m e => m.insert e.1 (e.2.named e.1)) c.effects
  functions := fs.foldl (fun m f => m.insert f.1 f.2) c.functions
  generation := c.generation + (fs.length + es.length)

theorem adding_adding (c : Catalog) (fs fs' : List (String × String)) (es es' : List (String × Effect)) :
    adding (adding c fs es) fs' es' = adding c (fs ++ fs') (es ++ es') := by
  simp only [adding, List.foldl_append, List.length_append]
  congr 1
  omega

theorem adding_functions_effects (c : Catalog) (fs : List (String × String)) (es : List (String × Effect)) :
    adding (adding c fs []) [] es = adding c fs es := by
  rw [adding_adding, List.append_nil, List.nil_append]

theorem foldl_registerFunction (fs : List (String × String)) : ∀ c : Catalog,
    fs.foldl (fun c f => c.registerFunction f.1 f.2) c = adding c fs [] := by
  induction fs with
  | nil => exact fun _ => rfl
  | cons f fs ih => exact fun c => (ih (adding c [f] [])).trans (adding_adding c [f] fs [] [])

/-- A valid effect is registered in whatever catalog. -/
theorem register_of_valid {e : Effect} (h : e.Valid) (c : Catalog) (name : String) :
    c.register name e = .ok (c.effect? name, adding c [] [(name, e)]) :=
  register_eq_ok.mpr ⟨h, rfl, rfl⟩

theorem foldlM_register {es : List (String × Effect)} (h : ∀ e ∈ es, e.2.Valid) : ∀ c : Catalog,
    es.foldlM (fun c e => (c.register e.1 e.2).map (·.2)) c = .ok (adding c [] es) := by
  induction es with
  | nil => exact fun _ => rfl
  | cons e es ih =>
    intro c
    rw [List.foldlM_cons, register_of_valid (h e List.mem_cons_self)]
    exact (ih (fun d hd => h d (List.mem_cons_of_mem e hd)) _).trans (congrArg _ (adding_adding c [] [] [e] es))

theorem forM_validate_eq_ok {es : List Effect} : es.forM Effect.validate = .ok () ↔ ∀ e ∈ es, e.Valid := by
  induction es with
  | nil => simp [pure, Except.pure]
  | cons e es ih =>
    show (e.validate >>= fun _ => es.forM Effect.validate) = .ok () ↔ _
    rw [Json.bind_eq_ok, List.forall_mem_cons, ← ih, ← Effect.validate_eq_ok]
    exact ⟨fun ⟨_, h, hs⟩ => ⟨h, hs⟩, fun ⟨h, hs⟩ => ⟨(), h, hs⟩⟩

theorem valid_of_forM_validate {file : CatalogExtension} (h : file.effects.values.forM Effect.validate = .ok ()) :
    ∀ e ∈ file.effects.toList, e.2.Valid :=
  fun _ he => forM_validate_eq_ok.mp h _ (List.mem_map_of_mem he)

theorem extendWith_eq (file : CatalogExtension) (c : Catalog) :
    c.extendWith file = match file.effects.values.forM Effect.validate with
      | .ok () => .ok (adding c file.functions.toList file.effects.toList)
      | .error fault => .error fault := by
  unfold extendWith
  cases hfile : file.effects.values.forM Effect.validate with
  | error fault => rfl
  | ok =>
    -- Each registration validates again, and what it validates is what has been looked at.
    show file.effects.toList.foldlM _ _ = _
    rw [foldl_registerFunction, foldlM_register (valid_of_forM_validate hfile), adding_functions_effects]

theorem extend_eq (text : String) (c : Catalog) :
    c.extend text = match CatalogExtension.ofText text with
      | .ok file => c.extendWith file
      | .error e => .error (.json e) := by
  unfold extend
  cases CatalogExtension.ofText text <;> rfl

/-! ### Runs -/

namespace Update

theorem run_ofExcept {α : Type} (x : Except Error α) (c : Catalog) :
    (MonadExcept.ofExcept x : Update α).run c = match x with
      | .ok a => .ok a c
      | .error e => .error e c := by
  cases x <;> rfl

/-- A registration that is refused changes nothing. -/
theorem run_register (name : String) (e : Effect) (c : Catalog) :
    (register name e).run c = match c.register name e with
      | .ok (old, c') => .ok old c'
      | .error fault => .error fault c := by
  unfold register Catalog.register
  rw [EStateM.run_bind, run_ofExcept]
  cases e.validate <;> rfl

theorem run_discard_register (name : String) (e : Effect) (c : Catalog) :
    (discard (register name e) : Update Unit).run c = match (c.register name e).map (·.2) with
      | .ok c' => .ok () c'
      | .error fault => .error fault c := by
  have h : (discard (register name e) : Update Unit) = register name e >>= fun _ => pure () := rfl
  rw [h, EStateM.run_bind, run_register]
  cases c.register name e <;> rfl

theorem run_forM_validate (es : List Effect) : ∀ c : Catalog,
    (es.forM fun e => (MonadExcept.ofExcept e.validate : Update Unit)).run c = match es.forM Effect.validate with
      | .ok () => .ok () c
      | .error fault => .error fault c := by
  induction es with
  | nil => exact fun _ => rfl
  | cons e es ih =>
    intro c
    show (MonadExcept.ofExcept e.validate >>= fun _ => es.forM fun e =>
      (MonadExcept.ofExcept e.validate : Update Unit)).run c = match e.validate >>= fun _ => es.forM Effect.validate with
        | .ok () => .ok () c
        | .error fault => .error fault c
    rw [EStateM.run_bind, run_ofExcept]
    cases e.validate with
    | error fault => rfl
    | ok => exact ih c

theorem run_forM_registerFunction (fs : List (String × String)) : ∀ c : Catalog,
    (fs.forM fun f => registerFunction f.1 f.2).run c = .ok () (adding c fs []) := by
  induction fs with
  | nil => exact fun _ => rfl
  | cons f fs ih =>
    intro c
    exact (ih (adding c [f] [])).trans (congrArg _ (adding_adding c [f] fs [] []))

theorem run_registerAll {es : List (String × Effect)} (h : ∀ e ∈ es, e.2.Valid) : ∀ c : Catalog,
    (registerAll es).run c = .ok () (adding c [] es) := by
  induction es with
  | nil => exact fun _ => rfl
  | cons e es ih =>
    intro c
    have hrun : registerAll (e :: es) = discard (register e.1 e.2) >>= fun _ => registerAll es := rfl
    rw [hrun, EStateM.run_bind, run_discard_register, register_of_valid (h e List.mem_cons_self)]
    exact (ih (fun d hd => h d (List.mem_cons_of_mem e hd)) _).trans (congrArg _ (adding_adding c [] [] [e] es))

/-- The registrations of a file do not fail if its effects are valid. -/
theorem run_registrations {es : List (String × Effect)} (h : ∀ e ∈ es, e.2.Valid) (fs : List (String × String))
    (c : Catalog) :
    ((fs.forM fun f => registerFunction f.1 f.2) >>= fun _ => registerAll es).run c = .ok () (adding c fs es) := by
  rw [EStateM.run_bind, run_forM_registerFunction]
  exact (run_registerAll h _).trans (congrArg _ (adding_functions_effects c fs es))

theorem run_calls {file : CatalogExtension} (h : ∀ e ∈ file.effects.toList, e.2.Valid) (c : Catalog) :
    (file.calls.forM Call.update).run c = .ok () (adding c file.functions.toList file.effects.toList) := by
  have hloops : forM file.calls Call.update =
      (file.functions.toList.forM fun f => registerFunction f.1 f.2) >>= fun _ => registerAll file.effects.toList := by
    rw [CatalogExtension.calls, List.forM_append, List.forM_map, List.forM_map]
    rfl
  exact (congrArg (EStateM.run · c) hloops).trans (run_registrations h _ c)

theorem run_extendWith (file : CatalogExtension) (c : Catalog) :
    (extendWith file).run c = match c.extendWith file with
      | .ok c' => .ok () c'
      | .error fault => .error fault c := by
  unfold extendWith
  rw [EStateM.run_bind, run_forM_validate, extendWith_eq]
  cases hfile : file.effects.values.forM Effect.validate with
  | error fault => rfl
  | ok => exact run_registrations (valid_of_forM_validate hfile) _ c

theorem run_extend (text : String) (c : Catalog) :
    (extend text).run c = match c.extend text with
      | .ok c' => .ok () c'
      | .error e => .error e c := by
  unfold extend
  rw [EStateM.run_bind, run_ofExcept, extend_eq]
  cases CatalogExtension.ofText text with
  | error e => rfl
  | ok file => exact run_extendWith file c

end Update

namespace Call
variable {k : Call} {c c' : Catalog} {error : Error}

/-- A call in place leaves the catalog that the call gives, or the one that was there if it fails. -/
theorem run_update (k : Call) (c : Catalog) :
    k.update.run c = match k.apply c with
      | .ok c' => .ok () c'
      | .error e => .error e c := by
  cases k with
  | extend text => exact Update.run_extend text c
  | register name e => exact Update.run_discard_register name e c
  | registerFunction name body => rfl

theorem run_eq_ok : k.update.run c = .ok () c' ↔ k.apply c = .ok c' := by
  rw [run_update]
  cases k.apply c <;> simp

theorem run_eq_error : k.update.run c = .error error c' ↔ k.apply c = .error error ∧ c' = c := by
  rw [run_update]
  cases k.apply c <;> simp [eq_comm]

end Call

/-! ### All or nothing -/

/-- A text that cannot be read or has an invalid effect leaves the catalog as it was. Any other text leaves what the
    registrations of its file leave one after the other, of which none fails. -/
theorem extend_or_unchanged (c : Catalog) (text : String) :
    ((Update.extend text).run c = match c.extend text with
      | .ok c' => .ok () c'
      | .error e => .error e c) ∧
    ((∃ e, CatalogExtension.ofText text = .error e ∧ (Update.extend text).run c = .error (.json e) c) ∨
      ∃ file, CatalogExtension.ofText text = .ok file ∧
        ((∃ fault, file.effects.values.forM Effect.validate = .error fault ∧
            (Update.extend text).run c = .error fault c) ∨
          (∀ d, ∃ d', (Update.registerAll file.effects.toList).run d = .ok () d') ∧
          ∃ c', (Update.extend text).run c = .ok () c' ∧ (file.calls.forM Call.update).run c = .ok () c' ∧
            c'.id = c.id ∧ (∀ name, c'.function? name = (file.functions.get? name).or (c.function? name)) ∧
            (∀ name, c'.effect? name = ((file.effects.get? name).map (·.named name)).or (c.effect? name)) ∧
            c'.generation = c.generation + (file.functions.keys.length + file.effects.keys.length))) := by
  refine ⟨Update.run_extend text c, ?_⟩
  rw [Update.run_extend, extend_eq]
  cases CatalogExtension.ofText text with
  | error e => exact .inl ⟨e, rfl, rfl⟩
  | ok file =>
    refine .inr ⟨file, rfl, ?_⟩
    simp only [extendWith_eq]
    cases hfile : file.effects.values.forM Effect.validate with
    | error fault => exact .inl ⟨fault, rfl, rfl⟩
    | ok =>
      have valid := valid_of_forM_validate hfile
      refine .inr ⟨fun d => ⟨_, Update.run_registerAll valid d⟩, _, rfl, Update.run_calls valid c, rfl, fun name => ?_,
        fun name => ?_, ?_⟩
      · have hget := KeyMap.get?_foldl_insert (m := c.functions) (fun _ body => body) name file.functions.nodup_keys
        rwa [Option.map_id'] at hget
      · exact KeyMap.get?_foldl_insert (fun k e => e.named k) name file.effects.nodup_keys
      · simp [adding, KeyMap.keys]

end Catalog
end FxStack
