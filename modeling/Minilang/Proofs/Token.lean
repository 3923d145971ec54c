import Minilang.Token.Basic

namespace Minilang.Token

def face (t : Token) : TokenKind × String × Option Int := (t.kind, t.lexeme, t.value)

theorem is_iff {t : Token} {wanted : TokenKind} {text : String} :
    t.is wanted text = true ↔ t.kind = wanted ∧ t.lexeme = text := by
  simp [Token.is]

theorem is_other {t : Token} {found wanted : TokenKind} (of : t.kind = found)
    (differs : found ≠ wanted) (text : String) : t.is wanted text = false := by
  simp [Token.is, of, differs]

theorem is_kind {t : Token} {found wanted : TokenKind} {here : String} (mark : t.is found here)
    (differs : found ≠ wanted) (text : String) : t.is wanted text = false :=
  is_other (is_iff.mp mark).1 differs text

theorem is_text {t : Token} {kind : TokenKind} {here text : String} (mark : t.is kind here)
    (differs : here ≠ text) : t.is kind text = false := by
  simp [Token.is, (is_iff.mp mark).2, differs]

end Minilang.Token
