/-!
# Base 64

Bytes written with 64 characters, six bits each.  Other characters between them are passed over, and
an equals sign ends the text once it fills up a group of four.

* `Base64.decode?`: the bytes that a text writes; nothing if its last group is incomplete.
-/

namespace TypedClient.Text.Base64

/-- The six bits of a character. -/
def sextet? (c : Char) : Option Nat :=
  if 'A' ≤ c ∧ c ≤ 'Z' then some (c.toNat - 65)
  else if 'a' ≤ c ∧ c ≤ 'z' then some (c.toNat - 71)
  else if '0' ≤ c ∧ c ≤ '9' then some (c.toNat + 4)
  else if c = '+' then some 62
  else if c = '/' then some 63
  else none

/-- The bytes of a text, given the sextets of the open group, first sextet first, and the number of
equals signs behind them. -/
def decodeFrom (group : List Nat) (pads : Nat) : List Char → Option (List UInt8)
  | [] => if group.isEmpty then some [] else none
  | c :: rest =>
    if c = '=' then
      if 2 ≤ group.length then
        if 4 ≤ group.length + (pads + 1) then some [] else decodeFrom group (pads + 1) rest
      else decodeFrom group pads rest
    else
      match sextet? c with
      | none => decodeFrom group pads rest
      | some n =>
        match group with
        | [a] => (decodeFrom [a, n] 0 rest).map (UInt8.ofNat (a * 4 + n / 16) :: ·)
        | [a, b] => (decodeFrom [a, b, n] 0 rest).map (UInt8.ofNat (b * 16 + n / 4) :: ·)
        | [_, _, c] => (decodeFrom [] 0 rest).map (UInt8.ofNat (c * 64 + n) :: ·)
        | _ => decodeFrom [n] 0 rest

/-- The bytes that a text writes. -/
def decode? (s : List Char) : Option (List UInt8) :=
  decodeFrom [] 0 s

end TypedClient.Text.Base64
