import SockEtOut.Proof.Serving
import SockEtOut.Wire.Builds

/-!
# Who is answered

The handlers of channels and messages drop the result of their operation. What a
client hears of its own request it hears as a member, through the notifications
its operation causes; a failure causes none. `Heard` is when that reaches the
connection that asked. On the way in and on the way out texts are printed, and a
text that is not UTF-8 gets past neither.
-/

namespace SockEtOut.Proof

open Lib System

variable {s s' : Server} {call : Server.Call}

/-- The call returns, and neither throws nor waits. -/
def Returns {α : Type} (o : Outcome α) : Prop := ∃ a, o = .returned a

instance {α : Type} : (o : Outcome α) → Decidable (Returns o)
  | .returned a => .isTrue ⟨a, rfl⟩
  | .raised _ => .isFalse (by simp [Returns])
  | .waiting => .isFalse (by simp [Returns])

/-- Alice (1) registers and logs in. -/
def aliceAlone : List Server.Call :=
  [⟨0, .registerAccount (lit "alice") (lit "secret") (lit "Alice"), .ofByte 1 []⟩,
    ⟨0, .login (lit "alice") (lit "secret"), .ofByte 0 []⟩]

end SockEtOut.Proof
