import Typings.Proofs.Hint.Scanning
import Typings.Proofs.Hint.Spans

/-! String literals as the scanner reads them. A quoted text is one token over all of its literal,
and says that text again but for its carriage returns.
-/

namespace Typings.Token

open Text Hint Lexeme

/-- A closed literal is one lexeme, whatever follows it. -/
theorem lexeme_quoted (cs rest : List Char)
    : lexeme? '"' (cs.flatMap escape ++ '"' :: rest)
      = some ⟨.string (String.ofList (cs.flatMap reread)), '"' :: (cs.flatMap escape ++ ['"']),
          rest⟩ := by
  change some (string '"' _) = _
  rw [string, spanString_escaped]
  dsimp only
  rw [unescape_escaped]

theorem scanFrom_cons {c : Char} {cs : List Char} {l : Lexeme} (found : lexeme? c cs = some l)
    (offset : Nat)
    : (scanFrom offset (c :: cs)).1
      = ⟨l.kind, offset, offset + byteSize l.taken⟩
        :: (scanFrom (offset + byteSize l.taken) l.rest).1 := by
  rw [scanFrom]
  split
  · simp_all
  · rename_i other foundOther
    cases found.symm.trans foundOther
    rfl

/-- The literal of a text scans to one string and the end. The string is the text in which every
carriage return has become a backslash and the letter that it is escaped with, and so the text
itself exactly if it has no carriage return.
-/
theorem scan_quote (value : String)
    : let source := quote value
      let size := source.utf8ByteSize
      scan source
          = [⟨.string (String.ofList (value.toList.flatMap reread)), 0, size⟩,
              ⟨.finish, size, size⟩]
      ∧ (scan source = [⟨.string value, 0, size⟩, ⟨.finish, size, size⟩]
          ↔ '\r' ∉ value.toList) := by
  intro source size
  have chars : source.toList = '"' :: (value.toList.flatMap escape ++ ['"']) :=
    String.toList_ofList
  have whole : byteSize source.toList = size := by
    rw [byteSize_eq, String.ofList_toList]
  have scanned
      : scan source
        = [⟨.string (String.ofList (value.toList.flatMap reread)), 0, size⟩,
            ⟨.finish, size, size⟩] := by
    have literal := scanFrom_cons (lexeme_quoted value.toList []) 0
    rw [scan_eq, read, chars, literal, scanFrom, ← chars, whole, Nat.zero_add]
    rfl
  refine ⟨scanned, ?_⟩
  rw [scanned, ← flatMap_reread_eq_iff]
  constructor
  · intro same
    simp only [List.cons.injEq, Token.mk.injEq, Kind.string.injEq, and_true] at same
    rw [← String.toList_inj, String.toList_ofList] at same
    exact same
  · intro same
    rw [same, String.ofList_toList]

example : scan (quote "\r") = [⟨.string "\\r", 0, 4⟩, ⟨.finish, 4, 4⟩] := by decide +kernel

end Typings.Token
