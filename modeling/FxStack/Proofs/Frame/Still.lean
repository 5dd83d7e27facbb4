import FxStack.Frame
import FxStack.Proofs.Device.Reference

/-! The parts of an application that leave the textures of the reference device just as they are: preparing
    the stack, borrowing scratch textures and building the antialias program. Pictures change only where
    passes are drawn and the result is written. -/

namespace FxStack

open ReferenceDevice (Still)

/-! ### Compiling -/

theorem Pass.still_build (index : Nat) (p : Pass) (d : ReferenceDevice) : Still d (p.build index d).2.1 := by
  unfold build
  dsimp only
  split
  · next hd => exact .compileProgram hd
  · next hd => exact .compileProgram hd

theorem Pass.still_buildAll (ps : List Pass) :
    ∀ (index : Nat) (d : ReferenceDevice), Still d (buildAll index d ps).2.1 := by
  induction ps with
  | nil => exact fun _ d => .refl d
  | cons p ps ih => exact fun index d => (p.still_build index d).trans (ih _ _)

theorem ReferenceDevice.Still.deletePrograms (programs : List ProgramId) :
    ∀ d : ReferenceDevice, Still d (programs.foldl Device.deleteProgram d) := by
  induction programs with
  | nil => exact fun d => .refl d
  | cons p programs ih => exact fun d => (Still.deleteProgram d p).trans (ih _)

namespace Stack
variable (s : Stack) (catalog : Catalog) (d : ReferenceDevice)

theorem still_compile : Still d (s.compile catalog d).2.1 :=
  (Still.deletePrograms s.programs d).trans (Pass.still_buildAll _ 0 _)

theorem still_prepare (pool : ScratchPool) : Still d (s.prepare catalog d pool).device := by
  unfold prepare
  dsimp only
  split
  · exact (still_compile (s.setRandom _) catalog d).trans (.setFixedFunction _ _)
  · exact .setFixedFunction d _

end Stack

/-! ### Borrowing -/

namespace ScratchPool
variable {pool pool' : ScratchPool} {d d' : ReferenceDevice} {kind : TextureKind}

theorem still_acquire {r : Except DeviceError TextureId} (h : pool.acquire d kind = (r, pool', d')) : Still d d' := by
  unfold acquire at h
  split at h
  · cases h
    exact .refl d
  · split at h
    · next hd =>
      cases h
      exact .createTexture hd
    · next hd =>
      cases h
      exact .createTexture hd

theorem still_acquirePair {r : Except DeviceError (TextureId × TextureId)} {notices : List Notice}
    (h : pool.acquirePair d kind = (r, pool', d', notices)) : Still d d' := by
  unfold acquirePair at h
  split at h
  · next h1 =>
    cases h
    exact still_acquire h1
  · next h1 =>
    split at h
    · next h2 =>
      cases h
      exact (still_acquire h1).trans (still_acquire h2)
    · next h2 =>
      cases h
      exact (still_acquire h1).trans (still_acquire h2)

end ScratchPool

/-! ### Smoothing edges -/

namespace Application
variable (a : Application ReferenceDevice)

theorem still_ensureAntialias : Still a.device a.ensureAntialias.2.device := by
  unfold ensureAntialias
  split
  · exact .refl _
  · exact .refl _
  · split
    · next hd => exact .compileProgram hd
    · next hd => exact .compileProgram hd

/-- An antialias draw that is not made writes nothing. -/
theorem drawAntialias_false {t : TextureId} {target : Target} {b : Application ReferenceDevice}
    (h : a.drawAntialias t target = (false, b)) : Still a.device b.device := by
  have hq := a.still_ensureAntialias
  unfold drawAntialias at h
  split at h
  · next e he =>
    cases h
    rw [he] at hq
    exact hq
  · next p e he =>
    rw [he] at hq
    split at h
    · cases h
    · next hd =>
      cases h
      rw [← ReferenceDevice.draw_error hd] at hq
      exact hq

theorem drawAntialias_true {t : TextureId} {target : Target} {b : Application ReferenceDevice}
    (h : a.drawAntialias t target = (true, b)) :
    ∃ p d, Still a.device d ∧
      Device.draw d ⟨p, target, antialiasBindings d t⟩ = (.ok (), b.device) := by
  have hq := a.still_ensureAntialias
  unfold drawAntialias at h
  split at h
  · cases h
  · next p e he =>
    rw [he] at hq
    split at h
    · next hd =>
      cases h
      exact ⟨p, e.device, hq, hd⟩
    · cases h

end Application
end FxStack
