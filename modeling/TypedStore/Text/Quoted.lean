/-
  TypedStore/Text/Quoted.lean
  ===========================
  **A character between quotes, as error messages show it.**

  NUL, tab, line feed, carriage return, the quote itself and the backslash have two-character
  escapes. A printable character stands for itself and every other one is written by its number
  in hexadecimal.
-/
import TypedStore.Text.Printable

namespace TypedStore.Text

def escape (c : Char) : List Char :=
  match c with
  | '\x00' => ['\\', '0']
  | '\t' => ['\\', 't']
  | '\n' => ['\\', 'n']
  | '\x0d' => ['\\', 'r']
  | '\'' => ['\\', '\'']
  | '\\' => ['\\', '\\']
  | _ =>
    if isPrintable c then [c]
    else '\\' :: 'u' :: '\x7b' :: Nat.toDigits 16 c.toNat ++ ['\x7d']

def quote (c : Char) : String := String.ofList ('\'' :: escape c ++ ['\''])

example : quote 'é' = "'é'" ∧ quote '"' = "'\"'" ∧ quote '\'' = "'\\''" := by decide +kernel
example : quote '\u200b' = "'\\u\x7b200b\x7d'" ∧ quote '\x00' = "'\\0'" := by decide +kernel

end TypedStore.Text
