import Lineage.Proofs.Scan.Records
import Lineage.Proofs.Store.Places
import Lineage.Proofs.Text.LineEnds

/-!
# Reading the files of a project

Any file that can be read has a text, whatever its bytes are.  If they are those of a text without
carriage returns, it is this text.  Otherwise the text has the ASCII bytes of the file in their
order, with its line ends as line feeds, and what is malformed in the file stays between the ASCII
characters that it stands between in the file.  So neither the source text around it nor the number
of a line is affected.

## Main results

* `Project.read_of_access`: what the first read of a file gives.
* `Project.read_lossless`: the text of a file, compared with its bytes.
-/

namespace Lineage.Project

variable {project : Project} {path : Path} {bytes : List UInt8}

theorem read_of_access (haccess : project.store.access path = .ok (.file bytes))
    (hreadable : path ∉ project.store.unreadable) :
    ((project.read path).run {}).1 = .ok (Text.ofSourceBytes bytes) := by
  have hread : (project.record path {}).outcome = project.store.readText path :=
    outcome_of_unknown rfl
  show (project.record path {}).outcome = _
  rw [hread, Store.readText_of_access haccess, if_neg hreadable]

/-- A text without carriage returns is read from its own bytes.  From any other bytes a text without
carriage returns is read as well, and its ASCII characters, altogether and line by line, are the
ASCII bytes with their line ends folded. -/
theorem read_lossless (haccess : project.store.access path = .ok (.file bytes))
    (hreadable : path ∉ project.store.unreadable) :
    (∀ text : String, '\r' ∉ text.toList → bytes = Text.toBytes text →
        ((project.read path).run {}).1 = .ok text) ∧
      ∃ text, ((project.read path).run {}).1 = .ok text ∧ '\r' ∉ text.toList ∧
        text.toList.filter Text.Utf8.isAscii = Text.asciiText bytes ∧
        (Text.lines text.toList).map (List.filter Text.Utf8.isAscii) =
          Text.lines (Text.asciiText bytes) := by
  have hread := read_of_access haccess hreadable
  constructor
  · rintro text hcarriage rfl
    rw [hread, Text.ofSourceBytes_toBytes hcarriage]
  · exact ⟨Text.ofSourceBytes bytes, hread, Text.carriage_not_mem_ofSourceBytes bytes,
      Text.filter_isAscii_ofSourceBytes bytes, Text.lines_ofSourceBytes bytes⟩

/-- A project with one file, which has malformed bytes at the end of a line and between two
carriage returns. -/
def garbled : Project where
  store :=
    { entries := [(["p"], .directory),
        (["p", "a.js"], .file [0x61, 0xE2, 0x82, 0x0D, 0x0A, 0x0D, 0xFF, 0x0D, 0x62])] }
  root := ⟨.root, ["p"]⟩
  settings := {}

theorem read_lossless_garbled :
    ((garbled.read ⟨.root, ["p", "a.js"]⟩).run {}).1 = .ok "a\uFFFD\n\n\uFFFD\nb" ∧
      ∃ text, ((garbled.read ⟨.root, ["p", "a.js"]⟩).run {}).1 = .ok text ∧
        text.toList.filter Text.Utf8.isAscii = ['a', '\n', '\n', '\n', 'b'] := by
  have haccess : garbled.store.access ⟨.root, ["p", "a.js"]⟩ =
      .ok (.file [0x61, 0xE2, 0x82, 0x0D, 0x0A, 0x0D, 0xFF, 0x0D, 0x62]) := rfl
  have hreadable : (⟨.root, ["p", "a.js"]⟩ : Path) ∉ garbled.store.unreadable := List.not_mem_nil
  obtain ⟨-, text, hread, -, hascii, -⟩ := read_lossless haccess hreadable
  constructor
  · have htext : Text.ofSourceBytes [0x61, 0xE2, 0x82, 0x0D, 0x0A, 0x0D, 0xFF, 0x0D, 0x62] =
        "a\uFFFD\n\n\uFFFD\nb" := by decide +kernel
    rw [read_of_access haccess hreadable, htext]
  · have hfolded : Text.asciiText [0x61, 0xE2, 0x82, 0x0D, 0x0A, 0x0D, 0xFF, 0x0D, 0x62] =
        ['a', '\n', '\n', '\n', 'b'] := by decide +kernel
    exact ⟨text, hread, hascii.trans hfolded⟩

end Lineage.Project
