import Nsumo.Common.RingBuffer

namespace Nsumo.App

open Common

inductive EnemyPos : Type
  | none
  | frontLeft
  | front
  | frontRight
  | left
  | right
  | frontAndFrontLeft
  | frontAndFrontRight
  | frontAll
  | impossible
  deriving DecidableEq, Repr

inductive EnemyRange : Type
  | none
  | close
  | mid
  | far
  deriving DecidableEq, Repr

structure Enemy : Type where
  position : EnemyPos
  range : EnemyRange
  deriving DecidableEq, Repr

def enemyNone : Enemy := ⟨.none, .none⟩

def enemyDetected (enemy : Enemy) : Bool :=
  enemy.position != .none && enemy.position != .impossible

def enemyAtLeft (enemy : Enemy) : Bool :=
  enemy.position == .left || enemy.position == .frontLeft ||
    enemy.position == .frontAndFrontLeft

def enemyAtRight (enemy : Enemy) : Bool :=
  enemy.position == .right || enemy.position == .frontRight ||
    enemy.position == .frontAndFrontRight

def enemyAtFront (enemy : Enemy) : Bool :=
  enemy.position == .front || enemy.position == .frontAll

inductive Line : Type
  | none
  | front
  | back
  | left
  | right
  | frontLeft
  | frontRight
  | backLeft
  | backRight
  | diagonalLeft
  | diagonalRight
  deriving DecidableEq, Repr

structure Input : Type where
  enemy : Enemy
  line : Line
  deriving DecidableEq, Repr

/-- The layout of `struct input` with one-byte enumerations. -/
def Input.toBytes (input : Input) : List Byte :=
  [BitVec.ofNat 8 input.enemy.position.ctorIdx, BitVec.ofNat 8 input.enemy.range.ctorIdx,
    BitVec.ofNat 8 input.line.ctorIdx]

def Input.ofBytes (bytes : List Byte) : Input where
  enemy.position := .ofNat (bytes.getD 0 0).toNat
  enemy.range := .ofNat (bytes.getD 1 0).toNat
  line := .ofNat (bytes.getD 2 0).toNat

@[simp] theorem Input.ofBytes_toBytes (input : Input) : ofBytes input.toBytes = input := by
  obtain ⟨⟨position, range⟩, line⟩ := input
  cases position <;> cases range <;> cases line <;> rfl

@[simp] theorem Input.length_toBytes (input : Input) : input.toBytes.length = 3 := rfl

def inputEqual (a b : Input) : Bool :=
  a.line == b.line && a.enemy.position == b.enemy.position && a.enemy.range == b.enemy.range

def inputHistorySave (history : RingBuffer) (input : Input) : Except Assert RingBuffer := do
  -- Skip if no input detected
  if input.enemy.position == .none && input.line == .none then
    return history
  -- Skip if identical input detected
  if history.count != 0 then
    let lastInput := Input.ofBytes (← history.peekHead 0)
    if inputEqual input lastInput then
      return history
  history.put input.toBytes

def lastDirectedEnemyFrom (history : RingBuffer) : List Nat → Except Assert Enemy
  | [] => .ok enemyNone
  | offset :: offsets => do
    let input := Input.ofBytes (← history.peekHead offset)
    if enemyAtLeft input.enemy || enemyAtRight input.enemy then
      return input.enemy
    else
      lastDirectedEnemyFrom history offsets

def inputHistoryLastDirectedEnemy (history : RingBuffer) : Except Assert Enemy :=
  lastDirectedEnemyFrom history (List.range history.count)

end Nsumo.App
