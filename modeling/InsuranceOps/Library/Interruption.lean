/-
This file develops programs that may be stopped wherever they wait. A script is
a tree of commands on a world, where a command may fail and its answer decides
how the script goes on. A script that is stopped has performed some of its
commands, in order, and none of the later ones. The rules reduce a property of
every world a script can be stopped in to the commands: for each command and
for sequences, with what a part of the script has established when it ends.
-/

import Mathlib.Logic.Basic

namespace Interruption

/-- A program on a world: it is done, it fails, or it waits for a command whose answer it goes on
with. -/
inductive Script (World Failure : Type) (Result : Type) : Type 1 where
  | done (result : Result)
  | fails (failure : Failure)
  | awaits {Answer : Type} (command : World → Except Failure (Answer × World))
      (rest : Answer → Script World Failure Result)

namespace Script

variable {World Failure Answer Result Output : Type}

/-- A script goes on with the result of another one. -/
def andThen (next : Result → Script World Failure Output) :
    Script World Failure Result → Script World Failure Output
  | .done result => next result
  | .fails failure => .fails failure
  | .awaits command rest => .awaits command fun answer => (rest answer).andThen next

instance : Monad (Script World Failure) where
  pure := .done
  bind script next := script.andThen next

/-- Wait for one command. -/
def await (command : World → Except Failure (Answer × World)) : Script World Failure Answer :=
  .awaits command .done

/-- A computation that does not wait. -/
def ofExcept : Except Failure Result → Script World Failure Result
  | .ok result => .done result
  | .error failure => .fails failure

/-! ### Running a script -/

/-- The result of a script that is not stopped, and the world it leaves. A failed command leaves the
world as it is. -/
def finish : Script World Failure Result → World → Except Failure Result × World
  | .done result, world => (.ok result, world)
  | .fails failure, world => (.error failure, world)
  | .awaits command rest, world =>
    match command world with
    | .ok (answer, next) => (rest answer).finish next
    | .error failure => (.error failure, world)

/-- The world a script leaves that is stopped after so many commands, if it has not ended before. -/
def stopped : Script World Failure Result → World → Nat → World
  | .awaits command rest, world, count + 1 =>
    match command world with
    | .ok (answer, next) => (rest answer).stopped next count
    | .error _ => world
  | .awaits _ _, world, 0 | .done _, world, _ | .fails _, world, _ => world

/-- The property holds wherever the script can be stopped, and the script ends with a result and a
world that are related so. -/
def Meets (always : World → Prop) (post : Result → World → Prop) :
    Script World Failure Result → World → Prop
  | .done result, world => always world ∧ post result world
  | .fails _, world => always world
  | .awaits command rest, world => always world ∧
      ∀ answer next, command world = .ok (answer, next) → (rest answer).Meets always post next

variable {always : World → Prop} {post : Result → World → Prop}
  {command : World → Except Failure (Answer × World)} {world : World}

/-! ### Rules -/

theorem Meets.holds {script : Script World Failure Result}
    (meets : script.Meets always post world) : always world := by
  cases script with
  | done result => exact meets.1
  | fails failure => exact meets
  | awaits command rest => exact meets.1

/-- A property that a script meets holds wherever it is stopped. -/
theorem Meets.stopped {script : Script World Failure Result}
    (meets : script.Meets always post world) (count : Nat) :
    always (script.stopped world count) := by
  induction script generalizing world count with
  | done result => exact meets.1
  | fails failure => exact meets
  | awaits command rest inductionHypothesis =>
    cases count with
    | zero => exact meets.1
    | succ count =>
      unfold Script.stopped
      split
      · rename_i answer next answered
        exact inductionHypothesis answer (meets.2 answer next answered) count
      · exact meets.1

/-- The rule for a sequence: the second script starts where the first one ends. -/
theorem meets_bind {script : Script World Failure Result}
    {next : Result → Script World Failure Output} {last : Output → World → Prop}
    (first : script.Meets always (fun result world => (next result).Meets always last world)
      world) :
    (script >>= next).Meets always last world := by
  induction script generalizing world with
  | done result => exact first.2
  | fails failure => exact first
  | awaits command rest inductionHypothesis =>
    exact ⟨first.1, fun answer reached answered =>
      inductionHypothesis answer (first.2 answer reached answered)⟩

/-- The rule for one command. -/
theorem meets_await {post : Answer → World → Prop} (before : always world)
    (after : ∀ answer next, command world = .ok (answer, next) →
      always next ∧ post answer next) :
    (await command).Meets always post world :=
  ⟨before, after⟩

/-- The rule for a computation that does not wait. -/
theorem meets_ofExcept {computed : Except Failure Result} (holds : always world)
    (established : ∀ result, computed = .ok result → post result world) :
    (ofExcept computed).Meets always post world := by
  cases computed with
  | error failure => exact holds
  | ok result => exact ⟨holds, established result rfl⟩

/-- What a sequence leaves is what the second script leaves where the first one ends. -/
theorem finish_bind (script : Script World Failure Result)
    (next : Result → Script World Failure Output) (world : World) :
    (script >>= next).finish world =
      match script.finish world with
      | (.ok result, reached) => (next result).finish reached
      | (.error failure, reached) => (.error failure, reached) := by
  induction script generalizing world with
  | done result => rfl
  | fails failure => rfl
  | awaits command rest inductionHypothesis =>
    show (Script.awaits command fun answer => rest answer >>= next).finish world = _
    simp only [finish]
    cases command world with
    | error failure => rfl
    | ok answered => exact inductionHypothesis answered.1 answered.2

theorem finish_await (command : World → Except Failure (Answer × World)) (world : World) :
    (await command).finish world =
      match command world with
      | .ok (answer, next) => (.ok answer, next)
      | .error failure => (.error failure, world) := by
  unfold await finish
  cases command world <;> rfl

theorem finish_ofExcept_bind (computed : Except Failure Result)
    (next : Result → Script World Failure Output) (world : World) :
    (ofExcept computed >>= next).finish world =
      match computed with
      | .ok result => (next result).finish world
      | .error failure => (.error failure, world) := by
  cases computed <;> rfl

end Script

end Interruption
