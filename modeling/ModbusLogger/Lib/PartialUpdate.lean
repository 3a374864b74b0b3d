import ModbusLogger.Lib.Table

/-!
# Updates of some columns

A command may say a new value for a column, or nothing. The frame of an update is the law that a
column of which the command says nothing keeps its value, and that any other column takes exactly what
is said.
-/

/-- A column of the rows `R`, with what a command of `C` says about it. -/
structure Column (R C : Type) where
  V : Type
  get : R → V
  said : C → Option V

namespace Column

variable {R C : Type}

/-- A column that no command mentions. -/
def silent {V : Type} (get : R → V) : Column R C := ⟨V, get, fun _ => none⟩

/-- The column of the new row is the one that the command asks for: what is said, or else what was
there. -/
def Obeyed (col : Column R C) (command : C) (old new : R) : Prop :=
  (col.said command = none → col.get new = col.get old) ∧
    ∀ v, col.said command = some v → col.get new = v

variable {col : Column R C} {command : C} {old new : R}

theorem obeyed_iff :
    col.Obeyed command old new ↔ col.get new = (col.said command).getD (col.get old) := by
  unfold Obeyed
  cases col.said command with
  | none => simp
  | some v => simp

end Column

variable {R C : Type}

/-- All columns of the new row are those that the command asks for. -/
def Framed (columns : List (Column R C)) (command : C) (old new : R) : Prop :=
  ∀ col ∈ columns, col.Obeyed command old new

variable {columns : List (Column R C)} {command : C} {old new : R}

@[simp] theorem framed_nil : Framed ([] : List (Column R C)) command old new :=
  fun _ h => absurd h List.not_mem_nil

@[simp] theorem framed_cons {col : Column R C} : Framed (col :: columns) command old new ↔
    col.Obeyed command old new ∧ Framed columns command old new := List.forall_mem_cons
