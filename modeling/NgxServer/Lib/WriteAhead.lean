import Mathlib.Data.List.Infix

/-!
# A copy written ahead of its register

A register is held elsewhere and copied here. A write computes the new value from
the copy, stores it in the copy and only then asks for the register to be written,
which may be refused. The copy follows the register exactly when a refused write
asks for what the copy has already.
-/

namespace WriteAhead

set_option autoImplicit false

variable {Value : Type*}

/-- The copy, and the register if it has been written at all. -/
structure Mirror (Value : Type*) where
  copy : Value
  register : Option Value

structure Write (Value : Type*) where
  update : Value → Value
  landed : Bool

def Mirror.write (mirror : Mirror Value) (write : Write Value) : Mirror Value where
  copy := write.update mirror.copy
  register := if write.landed then some (write.update mirror.copy) else mirror.register

def Mirror.run (mirror : Mirror Value) (writes : List (Write Value)) : Mirror Value :=
  writes.foldl Mirror.write mirror

def Mirror.InStep (mirror : Mirror Value) : Prop :=
  ∀ value, mirror.register = some value → mirror.copy = value

/-- A refused write asks for the value that the copy has. -/
def Mirror.Idle (mirror : Mirror Value) (write : Write Value) : Prop :=
  write.landed = false → write.update mirror.copy = mirror.copy

theorem run_append (mirror : Mirror Value) (first second : List (Write Value)) :
    mirror.run (first ++ second) = (mirror.run first).run second :=
  List.foldl_append

theorem run_snoc (mirror : Mirror Value) (writes : List (Write Value)) (write : Write Value) :
    mirror.run (writes ++ [write]) = (mirror.run writes).write write :=
  run_append mirror writes [write]

theorem write_in_step {mirror : Mirror Value} {write : Write Value} (before : mirror.InStep)
    (idle : mirror.Idle write) : (mirror.write write).InStep := by
  intro value held
  cases landed : write.landed with
  | true =>
      rw [Mirror.write, landed] at held
      exact Option.some.inj held
  | false =>
      rw [Mirror.write, landed] at held
      exact (idle landed).trans (before value held)

/-- When every refused write of a run is idle, the copy is in step at every point of it. -/
theorem run_in_step {mirror : Mirror Value} {writes : List (Write Value)}
    (start : mirror.InStep)
    (idle : ∀ done write, done ++ [write] <+: writes → (mirror.run done).Idle write) :
    (mirror.run writes).InStep := by
  induction writes using List.reverseRecOn with
  | nil => exact start
  | append_singleton writes write ih =>
      have earlier : (mirror.run writes).InStep := by
        apply ih
        intro done other reached
        exact idle done other (reached.trans (List.prefix_append writes [write]))
      rw [run_snoc]
      exact write_in_step earlier (idle writes write (List.prefix_refl _))

/-- Writing there and back from a copy that is in step leaves what the register had. -/
theorem round_trip {mirror : Mirror Value} {value : Value} {there back : Value → Value}
    (inStep : mirror.InStep) (held : mirror.register = some value) :
    (mirror.run [⟨there, true⟩, ⟨back, true⟩]).register = some (back (there value)) := by
  rw [← inStep value held]
  rfl

end WriteAhead
