/-
  The world: which entities live, and what they are made of.

  * Ids are handed out upwards from 1 and none twice until the ids run out;
    then the search starts again at 1.  The id `EntityId.invalid` never lives.
  * Components are attached to live entities only and go with them, so an id
    that is revived carries nothing of its former life.
  * `get?`, `isAlive` and `entitiesWith` are the views of a world.
-/
import Netplay.World.Component
import Netplay.World.EntityMap

namespace Netplay

namespace EntityId

/-- The id that no entity ever has: the greatest. -/
def invalid : EntityId := 0xffffffff

def greatest : EntityId := 0xfffffffe

/-- The id that is tried after `id`; 1 follows the greatest. -/
def succ (id : EntityId) : EntityId := if id < greatest then id + 1 else 1

/-- The least number from `n` up that is not in an ascending list of ids. -/
def firstGap (n : Nat) : List EntityId → Nat
  | [] => n
  | id :: rest =>
    if id.toNat < n then firstGap n rest
    else if id.toNat = n then firstGap (n + 1) rest
    else n

end EntityId

open Component (Kind)

/-- Which entities live, and what they are made of. -/
structure World where
  alive : EntityMap Unit := .empty
  /-- Where the search for a free id starts. -/
  nextId : EntityId := 1
  /-- The kinds of component that any entity ever had. -/
  kindsSeen : List Kind := []
  transforms : EntityMap Transform := .empty
  velocities : EntityMap Vec2 := .empty
  healths : EntityMap Health := .empty
  lives : EntityMap UInt8 := .empty
  scores : EntityMap Int32 := .empty
  /-- For how many seconds they cannot be hurt. -/
  invincibilities : EntityMap Binary32 := .empty
  renders : EntityMap UInt8 := .empty
  controllers : EntityMap UInt32 := .empty
  histories : EntityMap CommandLog := .empty

namespace World

def empty : World := {}

/-! ## Components of one kind -/

def store (r : World) : (k : Kind) → EntityMap k.Value
  | .transform => r.transforms
  | .velocity => r.velocities
  | .health => r.healths
  | .lives => r.lives
  | .score => r.scores
  | .invincibility => r.invincibilities
  | .render => r.renders
  | .controller => r.controllers
  | .history => r.histories

def withStore (r : World) : (k : Kind) → EntityMap k.Value → World
  | .transform, m => { r with transforms := m }
  | .velocity, m => { r with velocities := m }
  | .health, m => { r with healths := m }
  | .lives, m => { r with lives := m }
  | .score, m => { r with scores := m }
  | .invincibility, m => { r with invincibilities := m }
  | .render, m => { r with renders := m }
  | .controller, m => { r with controllers := m }
  | .history, m => { r with histories := m }

@[simp] theorem store_withStore (r : World) (k : Kind) (m : EntityMap k.Value) :
    (r.withStore k m).store k = m := by
  cases k <;> rfl

theorem store_withStore_of_ne (r : World) {j k : Kind} (h : j ≠ k) (m : EntityMap k.Value) :
    (r.withStore k m).store j = r.store j := by
  cases j <;> cases k <;> first | exact absurd rfl h | rfl

/-! ## Life and death -/

def isAlive (r : World) (id : EntityId) : Bool := r.alive.contains id

/-- The live entities, ascending. -/
def entities (r : World) : List EntityId := r.alive.ids

def count (r : World) : Nat := r.alive.size

/-- The first id without an entity, going up from `nextId` and on from 1; none
    if every id is taken. -/
def freeId? (r : World) : Option EntityId :=
  let above := EntityId.firstGap r.nextId.toNat r.entities
  if above ≤ EntityId.greatest.toNat then some (UInt32.ofNat above)
  else
    let around := EntityId.firstGap 1 r.entities
    if around ≤ EntityId.greatest.toNat then some (UInt32.ofNat around) else none

/-- A new entity under the first free id. -/
def create? (r : World) : Option (EntityId × World) :=
  r.freeId?.map fun id =>
    (id, { r with alive := r.alive.insert id (), nextId := EntityId.succ id })

/-- Bring the entity with the given id to life; refused if it lives or its id
    is the invalid one. -/
def spawn (r : World) (id : EntityId) : Bool × World :=
  if id = EntityId.invalid ∨ r.isAlive id then (false, r)
  else (true, { r with
    alive := r.alive.insert id ()
    nextId := if id ≥ r.nextId then id + 1 else r.nextId })

def strip (r : World) (id : EntityId) : World :=
  { r with
    transforms := r.transforms.erase id
    velocities := r.velocities.erase id
    healths := r.healths.erase id
    lives := r.lives.erase id
    scores := r.scores.erase id
    invincibilities := r.invincibilities.erase id
    renders := r.renders.erase id
    controllers := r.controllers.erase id
    histories := r.histories.erase id }

def destroy (r : World) (id : EntityId) : Bool × World :=
  if r.isAlive id then (true, { r.strip id with alive := r.alive.erase id }) else (false, r)

/-! ## Components of one entity -/

def get? (r : World) (k : Kind) (id : EntityId) : Option k.Value := (r.store k).get? id

def has (r : World) (k : Kind) (id : EntityId) : Bool := (r.get? k id).isSome

/-- Attach a component to a live entity, in the place of any other of its
    kind. -/
def attach (r : World) (k : Kind) (id : EntityId) (v : k.Value) : World :=
  if r.isAlive id then
    { r.withStore k ((r.store k).insert id v) with
      kindsSeen := if k ∈ r.kindsSeen then r.kindsSeen else k :: r.kindsSeen }
  else r

def modify (r : World) (k : Kind) (id : EntityId) (f : k.Value → k.Value) : World :=
  match r.get? k id with
  | some v => r.withStore k ((r.store k).insert id (f v))
  | none => r

def detach (r : World) (k : Kind) (id : EntityId) : World :=
  r.withStore k ((r.store k).erase id)

/-- The live entities that have a component of a kind, ascending. -/
def entitiesWith (r : World) (k : Kind) : List EntityId :=
  r.entities.filter fun id => r.has k id

/-- The world in a line: how many entities live, where the search for a
    free id starts, and how many kinds of component there have been. -/
def summary (r : World) : String :=
  s!"Registry \x7b alive: {r.count}, next_entity_id: {r.nextId}, " ++
    s!"component_types: {r.kindsSeen.length} \x7d"

end World

end Netplay
