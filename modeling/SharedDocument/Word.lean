/-! Words: natural numbers below `2 ^ 64`. Positions in texts and arrays, lengths, versions and
sequence numbers are words. Arithmetic on them either saturates, where an operation only needs
an upper bound, or reports the overflow. -/

namespace SharedDocument

structure Word where
  val : Nat
  isLt : val < 0x10000000000000000
deriving DecidableEq

instance : Repr Word := ⟨fun word precedence => reprPrec word.val precedence⟩

inductive Overflow where
  | addition
  | subtraction
deriving DecidableEq, Repr

def Overflow.message : Overflow → String
  | .addition => "attempt to add with overflow"
  | .subtraction => "attempt to subtract with overflow"

namespace Word

theorem ext_val {left right : Word} (same : left.val = right.val) : left = right := by
  cases left
  cases right
  simp_all

def zero : Word := ⟨0, by decide⟩

instance : Inhabited Word := ⟨zero⟩

def ofNat? (number : Nat) : Option Word :=
  if bound : number < 0x10000000000000000 then some ⟨number, bound⟩ else none

def clamp (number : Nat) : Word :=
  ⟨min number 0xFFFFFFFFFFFFFFFF, by omega⟩

/-- Addition that stops at the largest word. -/
def plus (word : Word) (amount : Nat) : Word :=
  clamp (word.val + amount)

/-- Subtraction that stops at zero. -/
def minus (word : Word) (amount : Nat) : Word :=
  ⟨word.val - amount, Nat.lt_of_le_of_lt (Nat.sub_le _ _) word.isLt⟩

def plus? (word : Word) (amount : Nat) : Except Overflow Word :=
  if bound : word.val + amount < 0x10000000000000000 then .ok ⟨word.val + amount, bound⟩
  else .error .addition

def minus? (word : Word) (amount : Nat) : Except Overflow Word :=
  if amount ≤ word.val then .ok (word.minus amount) else .error .subtraction

def plusIf? (word : Word) (condition : Bool) : Except Overflow Word :=
  if condition then word.plus? 1 else .ok word

def minusIf? (word : Word) (condition : Bool) : Except Overflow Word :=
  if condition then word.minus? 1 else .ok word

@[simp] theorem val_clamp (number : Nat) : (clamp number).val = min number 0xFFFFFFFFFFFFFFFF := rfl

@[simp] theorem val_plus (word : Word) (amount : Nat) :
    (word.plus amount).val = min (word.val + amount) 0xFFFFFFFFFFFFFFFF := rfl

@[simp] theorem val_minus (word : Word) (amount : Nat) :
    (word.minus amount).val = word.val - amount := rfl

theorem plus?_eq_ok_iff (word result : Word) (amount : Nat) :
    word.plus? amount = .ok result ↔ result.val = word.val + amount := by
  have bound := result.isLt
  unfold plus?
  split
  · constructor
    · intro same
      cases same
      rfl
    · intro same
      exact congrArg Except.ok (ext_val same.symm)
  · constructor
    · intro same
      cases same
    · intro same
      omega

theorem plus?_eq_error_iff (word : Word) (amount : Nat) (fault : Overflow) :
    word.plus? amount = .error fault ↔
      fault = .addition ∧ 0x10000000000000000 ≤ word.val + amount := by
  unfold plus?
  split
  · simp only [reduceCtorEq, false_iff, not_and]
    omega
  · simp only [Except.error.injEq]
    rw [eq_comm]
    exact (and_iff_left (by omega)).symm

theorem minus?_eq_ok_iff (word result : Word) (amount : Nat) :
    word.minus? amount = .ok result ↔ amount ≤ word.val ∧ result = word.minus amount := by
  unfold minus?
  split
  · constructor
    · intro same
      cases same
      exact ⟨‹_›, rfl⟩
    · intro same
      rw [same.2]
  · constructor
    · intro same
      cases same
    · intro same
      exact absurd same.1 ‹_›

end Word

end SharedDocument
