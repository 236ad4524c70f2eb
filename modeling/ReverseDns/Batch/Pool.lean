/-
# The order in which a pool finishes its tasks

A pool runs a bounded number of tasks at a time and starts the next one in the
queue whenever a task finishes. Which of the running tasks that is lies outside
the program's control, so it is given as a list of choices; every list of
choices is an order that can happen.

Key definitions: `Pool.completions`.
-/
import ReverseDns.Text

namespace ReverseDns
namespace Pool

variable {α : Type}

/-- The tasks of a queue in the order they finish. The first `width` tasks of
the queue are running, and each choice picks one of them; when the choices run
out, the rest finish in the order of the queue. -/
def completions (width : Nat) : (choices : List Nat) → (queue : List α) → List α
  | [], queue => queue
  | choice :: choices, queue =>
    let k := choice % min width queue.length
    match queue[k]? with
    | none => queue
    | some task => task :: completions width choices (queue.eraseIdx k)

end Pool
end ReverseDns
