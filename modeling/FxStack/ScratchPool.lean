import FxStack.Notice

/-!
# Scratch textures

A pool lends textures to draw into and takes them back, so that a texture that fits a request is
reused before a new one is created.
-/

namespace FxStack

/-- A pool of textures: those that wait to be lent, in the order of their return, and those that are
    on loan, with counts of what has happened. -/
structure ScratchPool where
  idle : List (TextureKind × TextureId)
  loans : List (TextureId × TextureKind)
  acquired : Nat
  released : Nat
  created : Nat

namespace ScratchPool

/-- The pool without textures. -/
def empty : ScratchPool := ⟨[], [], 0, 0, 0⟩

instance : Inhabited ScratchPool := ⟨empty⟩

/-- The list with its last element in the place of the one at `i`. -/
def swapRemove {α : Type} (l : List α) (i : Nat) : List α :=
  match l.getLast? with
  | none => []
  | some last => (l.set i last).dropLast

def lend (pool : ScratchPool) (kind : TextureKind) (t : TextureId) : ScratchPool :=
  { pool with
    loans := (t, kind) :: pool.loans.filter (·.1 ≠ t)
    acquired := pool.acquired + 1 }

/-- The first waiting texture of the given kind, and those that still wait. -/
def takeIdle? (pool : ScratchPool) (kind : TextureKind) :
    Option (TextureId × List (TextureKind × TextureId)) := do
  let i ← pool.idle.findIdx? (·.1 = kind)
  let e ← pool.idle[i]?
  return (e.2, swapRemove pool.idle i)

/-- A texture of the given kind, taken from those that wait or else created. -/
def acquire {δ : Type} [Device δ] (pool : ScratchPool) (device : δ) (kind : TextureKind) :
    Except DeviceError TextureId × ScratchPool × δ :=
  match pool.takeIdle? kind with
  | some (t, idle) => (.ok t, { pool with idle }.lend kind t, device)
  | none =>
    match Device.createTexture device kind with
    | (.ok t, device) => (.ok t, { pool with created := pool.created + 1 }.lend kind t, device)
    | (.error e, device) => (.error e, pool, device)

/-- The pool after a texture has been given back. Nothing changes if it was not on loan. -/
def release (pool : ScratchPool) (t : TextureId) : ScratchPool × List Notice :=
  match pool.loans.lookup t with
  | none => (pool, [.notOnLoan t])
  | some kind =>
    ({ pool with
        idle := pool.idle ++ [(kind, t)]
        loans := pool.loans.filter (·.1 ≠ t)
        released := pool.released + 1 }, [])

/-- Two textures of the given kind. If there is no second one the first one is given back. -/
def acquirePair {δ : Type} [Device δ] (pool : ScratchPool) (device : δ) (kind : TextureKind) :
    Except DeviceError (TextureId × TextureId) × ScratchPool × δ × List Notice :=
  match pool.acquire device kind with
  | (.error e, pool, device) => (.error e, pool, device, [])
  | (.ok first, pool, device) =>
    match pool.acquire device kind with
    | (.ok second, pool, device) => (.ok (first, second), pool, device, [])
    | (.error e, pool, device) =>
      let (pool, notices) := pool.release first
      (.error e, pool, device, notices)

/-- The pool after two textures have been given back. -/
def releasePair (pool : ScratchPool) (pair : TextureId × TextureId) : ScratchPool × List Notice :=
  let (pool, notices) := pool.release pair.1
  let (pool, notices') := pool.release pair.2
  (pool, notices ++ notices')

/-- The pool without the textures that wait, and the device on which they are destroyed. -/
def purge {δ : Type} [Device δ] (pool : ScratchPool) (device : δ) : ScratchPool × δ :=
  ({ pool with idle := [] }, pool.idle.foldl (fun d e => Device.destroyTexture d e.2) device)

end ScratchPool

end FxStack
