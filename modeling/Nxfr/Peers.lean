/-
Two parties that run the same machine and talk over two FIFO channels.

A machine takes a state and an event to the next state and a list of actions,
or refuses the event. Some actions send a message, which is an event to the
other party once it is delivered. A party also takes events of its own, each
side from a type of its own. Moves come in any order; an event that is refused
changes nothing, and a message is gone once delivered.
-/
import Nxfr.History

namespace Peers

/-- A machine, and the event an action of one party is to the other. -/
structure Machine (σ ε α κ : Type) where
  handle : σ → ε → Except κ (σ × List α)
  sends : α → Option ε

/-- The two parties and the messages under way, oldest first. -/
structure Net (σ ε : Type) where
  left : σ
  right : σ
  toRight : List ε
  toLeft : List ε
  deriving DecidableEq

inductive Move (ι κ : Type) where
  /-- An event of the left party's own. -/
  | left (e : ι)
  | right (e : κ)
  /-- The oldest message to the right party is delivered. -/
  | toRight
  | toLeft
  deriving DecidableEq

variable {σ ε α κ ι₁ ι₂ : Type}

def Net.swap (net : Net σ ε) : Net σ ε := ⟨net.right, net.left, net.toLeft, net.toRight⟩

def Move.swap : Move ι₁ ι₂ → Move ι₂ ι₁
  | .left e => .right e
  | .right e => .left e
  | .toRight => .toLeft
  | .toLeft => .toRight

namespace Machine

variable (m : Machine σ ε α κ)

/-- What one event makes of a party, and the messages it sends. -/
def take (s : σ) (e : ε) : σ × List ε := match m.handle s e with
  | .ok (s', actions) => (s', actions.filterMap m.sends)
  | .error _ => (s, [])

variable (own₁ : ι₁ → ε) (own₂ : ι₂ → ε)

def step (net : Net σ ε) : Move ι₁ ι₂ → Net σ ε
  | .left e =>
    { net with left := (m.take net.left (own₁ e)).1, toRight := net.toRight ++ (m.take net.left (own₁ e)).2 }
  | .right e =>
    { net with right := (m.take net.right (own₂ e)).1, toLeft := net.toLeft ++ (m.take net.right (own₂ e)).2 }
  | .toRight => match net.toRight with
    | [] => net
    | e :: rest =>
      { net with
        right := (m.take net.right e).1, toRight := rest, toLeft := net.toLeft ++ (m.take net.right e).2 }
  | .toLeft => match net.toLeft with
    | [] => net
    | e :: rest =>
      { net with
        left := (m.take net.left e).1, toLeft := rest, toRight := net.toRight ++ (m.take net.left e).2 }

variable {m own₁ own₂}

@[simp] theorem take_error {s : σ} {e : ε} {err : κ} (h : m.handle s e = .error err) : m.take s e = (s, []) := by
  simp [take, h]

theorem step_toRight {net : Net σ ε} {e : ε} {rest : List ε} (h : net.toRight = e :: rest) :
    m.step own₁ own₂ net .toRight =
      { net with
        right := (m.take net.right e).1, toRight := rest, toLeft := net.toLeft ++ (m.take net.right e).2 } := by
  simp only [step, h]

theorem step_toRight_nil {net : Net σ ε} (h : net.toRight = []) : m.step own₁ own₂ net .toRight = net := by
  simp only [step, h]

/-- The two sides are alike. -/
theorem step_swap (net : Net σ ε) (mv : Move ι₁ ι₂) :
    m.step own₂ own₁ net.swap mv.swap = (m.step own₁ own₂ net mv).swap := by
  cases mv with
  | left e => rfl
  | right e => rfl
  | toRight =>
    simp only [step, Net.swap, Move.swap]
    split <;> rfl
  | toLeft =>
    simp only [step, Net.swap, Move.swap]
    split <;> rfl

end Machine

/-- The delivery a move is, if it is one: the state of the party that receives
and the event it receives. -/
def Net.delivery (net : Net σ ε) : Move ι₁ ι₂ → Option (σ × ε)
  | .toRight => net.toRight.head?.map (net.right, ·)
  | .toLeft => net.toLeft.head?.map (net.left, ·)
  | .left _ | .right _ => none

theorem Net.delivery_swap (net : Net σ ε) (mv : Move ι₁ ι₂) : net.swap.delivery mv.swap = net.delivery mv := by
  cases mv <;> rfl

end Peers
