import Mathlib.Algebra.Order.Group.Nat
import Mathlib.Data.List.Basic

set_option autoImplicit false

namespace Framing

/-- Headers that tell the lengths below a bound. -/
structure Header (Symbol : Type) where
  width : Nat
  bound : Nat
  write : Nat → List Symbol
  read : List Symbol → Nat
  width_pos : 0 < width
  length_write : ∀ length, (write length).length = width
  read_write : ∀ length, length < bound → read (write length) = length

/-- What a reader of one frame finds in the part of the stream that is there. -/
inductive Found (Symbol : Type)
  | waiting
  | tooLong
  | whole (body rest : List Symbol)
deriving DecidableEq

namespace Header

variable {Symbol : Type} (header : Header Symbol)

def frame (body : List Symbol) : List Symbol := header.write body.length ++ body

/-- Looks for one frame whose body is within the limit. -/
def find (limit : Nat) (stream : List Symbol) : Found Symbol :=
  if stream.length < header.width then .waiting
  else
    let length := header.read (stream.take header.width)
    let rest := stream.drop header.width
    if limit < length then .tooLong
    else if rest.length < length then .waiting
    else .whole (rest.take length) (rest.drop length)

variable {limit : Nat} {body : List Symbol}

theorem length_frame : (header.frame body).length = header.width + body.length := by
  rw [frame, List.length_append, header.length_write]

@[simp] theorem find_nil : header.find limit [] = .waiting := if_pos header.width_pos

/-- A frame that is there is found, whatever follows it. -/
theorem find_frame (told : body.length < header.bound) (fits : body.length ≤ limit)
    (rest : List Symbol) : header.find limit (header.frame body ++ rest) = .whole body rest := by
  have long : ¬ (header.frame body ++ rest).length < header.width := by
    rw [List.length_append, header.length_frame]
    omega
  have front : (header.frame body ++ rest).take header.width = header.write body.length := by
    rw [frame, List.append_assoc, List.take_left' (header.length_write _)]
  have back : (header.frame body ++ rest).drop header.width = body ++ rest := by
    rw [frame, List.append_assoc, List.drop_left' (header.length_write _)]
  unfold find
  rw [if_neg long, front, back, header.read_write _ told]
  dsimp only
  rw [if_neg (not_lt.mpr fits), if_neg (by simp), List.take_left, List.drop_left]

/-- A part of a frame leaves the reader waiting. -/
theorem find_part {part : List Symbol} (told : body.length < header.bound)
    (fits : body.length ≤ limit) (front : part <+: header.frame body)
    (short : part.length < (header.frame body).length) : header.find limit part = .waiting := by
  unfold find
  by_cases headed : part.length < header.width
  · rw [if_pos headed]
  have whole : part.take header.width = header.write body.length := by
    obtain ⟨missing, split⟩ := front
    have whole : (header.frame body).take header.width = header.write body.length :=
      List.take_left' (header.length_write _)
    rw [← whole, ← split, List.take_append_of_le_length (not_lt.mp headed)]
  rw [header.length_frame] at short
  rw [if_neg headed, whole, header.read_write _ told]
  dsimp only
  rw [if_neg (not_lt.mpr fits), if_pos]
  rw [List.length_drop]
  omega

end Header

section
variable {Symbol : Type} [DecidableEq Symbol]

/-- The symbols up to the first delimiter, with it, or all of them. -/
def upTo (delimiter : Symbol) : List Symbol → List Symbol
  | [] => []
  | symbol :: rest => if symbol = delimiter then [symbol] else symbol :: upTo delimiter rest

variable {delimiter : Symbol} {body stream : List Symbol}

end

end Framing
