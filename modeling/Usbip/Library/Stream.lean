import Mathlib.Algebra.BigOperators.Group.List.Basic
import Mathlib.Algebra.Order.Ring.Int

namespace Usbip.Library.Stream

-- A decoder takes a message off the front of a stream.
variable {α γ : Type} {decode : List α → Option (γ × List α)}

-- The piece is the message, whatever follows it.
def Encodes (decode : List α → Option (γ × List α)) (piece : List α) (message : γ) : Prop :=
  piece ≠ [] ∧ ∀ rest, decode (piece ++ rest) = some (message, rest)

-- A whole stream; every message takes at least one symbol, so the length of the stream is enough fuel.
def decodeAll (decode : List α → Option (γ × List α)) : Nat → List α → Option (List γ)
  | _, [] => some []
  | 0, _ :: _ => none
  | fuel + 1, a :: stream =>
    match decode (a :: stream) with
    | none => none
    | some (message, rest) => (decodeAll decode fuel rest).map (message :: ·)

theorem decodeAll_cons {piece rest : List α} {message : γ} (h : Encodes decode piece message) (fuel : Nat) :
    decodeAll decode (fuel + 1) (piece ++ rest) = (decodeAll decode fuel rest).map (message :: ·) := by
  obtain ⟨hne, hdecode⟩ := h
  cases piece with
  | nil => exact absurd rfl hne
  | cons a piece =>
      rw [List.cons_append, decodeAll, ← List.cons_append, hdecode rest]

-- The messages of a stream, laid end to end, are read back.
inductive Carries (decode : List α → Option (γ × List α)) : List α → List γ → Prop
  | nil : Carries decode [] []
  | snoc {stream piece : List α} {messages : List γ} {message : γ} :
      Carries decode stream messages → Encodes decode piece message →
        Carries decode (stream ++ piece) (messages ++ [message])

theorem Carries.decodeAll_append {stream : List α} {messages : List γ} (h : Carries decode stream messages)
    (rest : List α) (fuel : Nat) :
    decodeAll decode (messages.length + fuel) (stream ++ rest) =
      (decodeAll decode fuel rest).map (messages ++ ·) := by
  induction h generalizing rest fuel with
  | nil => simp
  | snoc _ hpiece ih =>
      rw [List.length_append, List.length_singleton, Nat.add_assoc, List.append_assoc, ih, Nat.add_comm,
        decodeAll_cons hpiece, Option.map_map]
      congr 1
      funext tail
      simp

theorem Carries.length_le {stream : List α} {messages : List γ} (h : Carries decode stream messages) :
    messages.length ≤ stream.length := by
  induction h with
  | nil => exact Nat.le_refl _
  | snoc _ hpiece ih =>
      have hpos := List.length_pos_iff.mpr hpiece.1
      simp only [List.length_append, List.length_singleton]
      omega

theorem Carries.decodeAll_eq {stream : List α} {messages : List γ} (h : Carries decode stream messages) :
    decodeAll decode stream.length stream = some messages := by
  have hfuel := h.decodeAll_append [] (stream.length - messages.length)
  rw [Nat.add_sub_cancel' h.length_le, List.append_nil] at hfuel
  rw [hfuel]
  cases stream.length - messages.length <;> simp [decodeAll]

end Usbip.Library.Stream
