import HackToolchain.Proofs.Acceptance
import HackToolchain.Proofs.Build
import HackToolchain.Proofs.LocatedLines
import HackToolchain.Proofs.WrittenText
import Mathlib
/-!
Building in one go and building in stages. In one go the assembler gets the lines of the translation
as they are; in stages they are written to a file, read again and freed of their remarks. No line of
a translation is broken in the file, and the assembler does the same with lines that have the same
text wherever they stand, so both ways end alike.
-/

namespace HackToolchain

open Translator Instruction

/-! ## Lines of a translation are not broken -/

theorem Text.Unbroken.load {symbol : String} (h : Unbroken symbol.toList) :
    Unbroken (load symbol).render.toList := by
  rw [show (Translator.load symbol).render = "@" ++ symbol from rfl, String.toList_append]
  exact .append (by decide) h

theorem Text.Unbroken.label {name : String} (h : Unbroken name.toList) :
    Unbroken (Instruction.label name).render.toList := by
  rw [show (Instruction.label name).render = "(" ++ name ++ ")" from rfl, String.toList_append, String.toList_append]
  exact .append (.append (by decide) h) (by decide)

section

variable {unit : String} {options : Translator.Options}

end

/-! ## Both ways end alike -/

namespace Build

variable {source mid output : Path} {options : Translator.Options} {strict : Bool} {t u : FileTree} {α : Type}

theorem sourceLines_toUTF8 (path : Path) (text : String) :
    sourceLines path text.toUTF8 = .ok (meaningfulLines (some path) (Text.lines text.toList)) := by
  rw [sourceLines, Text.decodeUtf8_toUTF8]

theorem delivered_of_error {outcome : Outcome (List String × α)} {failure : Failure}
    (h : outcome.result = .error failure) :
    delivered output outcome t = (⟨.error failure, outcome.warnings⟩, t) := by
  rw [delivered, h]

theorem delivered_of_write {outcome : Outcome (List String × α)} {lines : List String} {a : α}
    (h : outcome.result = .ok (lines, a)) (hw : FileTree.write output (Text.unlines lines).toUTF8 t = .ok () u) :
    delivered output outcome t = (⟨.ok a, outcome.warnings⟩, u) := by
  rw [delivered, h]
  dsimp only
  rw [hw]

end Build

end HackToolchain
