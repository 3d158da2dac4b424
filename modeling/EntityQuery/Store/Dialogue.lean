/-!
# Dialogues with a server

What a store asks of its server, as data: a dialogue is over, or it asks one
question and goes on with the reply. So what is sent, in which order and under
which replies, can be said of the store without a server.

`run` holds a dialogue over a link. When the server cannot be reached nothing is
sent, and every question meets the reply that tells so.
-/

namespace EntityQuery

/-- A computation that may ask questions of type `Q` and is told replies of type `R`. -/
inductive Dialogue (Q R α : Type)
  | done (answer : α)
  | ask (question : Q) (next : R → Dialogue Q R α)

/-- A connection to a server. -/
inductive Link (Q R : Type)
  /-- No server; every question meets this reply. -/
  | down (reply : R)
  /-- A server that answers every question. -/
  | up (answer : Q → R)

namespace Dialogue

variable {Q R α β : Type}

/-- Goes on with the answer of a dialogue. -/
def bind (f : α → Dialogue Q R β) : Dialogue Q R α → Dialogue Q R β
  | done a => f a
  | ask question next => ask question fun reply => (next reply).bind f

instance : Monad (Dialogue Q R) where
  pure := done
  bind d f := d.bind f

/-- The answer of a dialogue over a link, and what was sent. -/
def run (link : Link Q R) : Dialogue Q R α → α × List Q
  | done a => (a, [])
  | ask question next =>
    match link with
    | .down reply => (next reply).run link
    | .up answer =>
      let (a, sent) := (next (answer question)).run link
      (a, question :: sent)

end Dialogue

end EntityQuery
