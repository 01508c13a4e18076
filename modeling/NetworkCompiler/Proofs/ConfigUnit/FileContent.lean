import NetworkCompiler.ConfigUnit.Catalogue
import NetworkCompiler.Proofs.Shell.FileWriting

/-!
# Contents of files

The unit of a file's content is mended by a command that carries the content as lines, up to a
line that ends them. A shell that runs the command makes the directory, writes exactly the content
and does nothing else, and the unit expects the checksum of these bytes (`fileContent_writes`).
That holds exactly if no line of the content is the line that ends it
(`isReadAs_fileContent_iff`) : such a line leaves the rest of the content to be run as commands.
-/

namespace NetworkCompiler.ConfigUnit

open Shell
open Text.Chars (flatMap_splitAt not_mem_of_mem_splitAt splitAt splitAt_flatMap)

variable {path body : String}

/-- A line end at the end of a text adds no line but an empty one. -/
theorem exists_toList_withLineEnd (s : String) :
    ∃ cs, (withLineEnd s).toList = cs ++ ['\n'] ∧
      ∀ line ≠ [], line ∈ splitAt '\n' s.toList ↔ line ∈ splitAt '\n' cs := by
  by_cases hend : s.toList.getLast? = some '\n'
  · obtain ⟨cs, hcs⟩ := List.getLast?_eq_some_iff.mp hend
    refine ⟨cs, ?_, fun line hne => ?_⟩
    · rw [withLineEnd, if_pos hend, hcs]
    · have hsplit : splitAt '\n' (cs ++ ['\n']) = splitAt '\n' cs ++ [[]] := by
        rw [← flatMap_splitAt, splitAt_flatMap fun _ => not_mem_of_mem_splitAt]
      simp [hcs, hsplit, hne]
  · refine ⟨s.toList, ?_, fun line _ => Iff.rfl⟩
    rw [withLineEnd, if_neg hend, String.toList_append]
    rfl

/-- The command that makes a file hold a text. -/
def contentCommand (path body : String) : String :=
  "mkdir -p " ++ quote (directoryOf path) ++ " && cat > " ++ quote path ++ " <<'" ++ fileEnd ++
    "'\n" ++ withLineEnd body ++ fileEnd

theorem config_fileContent (path body : String) :
    (fileContent path body).config = some (contentCommand path body) := rfl

theorem toList_contentCommand {cs : List Char} (hbody : (withLineEnd body).toList = cs ++ ['\n']) :
    (contentCommand path body).toList =
      writingChars (directoryOf path).toList path.toList fileEnd.toList
        (cs ++ '\n' :: fileEnd.toList) := by
  have hquote : quoteChars fileEnd.toList = '\'' :: (fileEnd.toList ++ ['\'']) := by
    decide +kernel
  rw [writingChars, hquote]
  delta contentCommand
  simp [quote, hbody]

theorem byteChars_writingChars (directory path delimiter rest : List Char) :
    byteChars (writingChars directory path delimiter rest) =
      writingChars (byteChars directory) (byteChars path) (byteChars delimiter)
        (byteChars rest) := by
  simp (disch := decide) only [writingChars, byteChars_append, byteChars_cons,
    byteChars_quoteChars, charBytes_of_isAscii, List.cons_append, List.nil_append]

theorem allAscii_fileEnd : AllAscii fileEnd.toList := by
  decide +kernel

/-- A line of a text is the end line exactly if the bytes of one are. -/
theorem fileEnd_mem_splitAt_byteChars (cs : List Char) :
    fileEnd.toList ∈ splitAt '\n' (byteChars cs) ↔ fileEnd.toList ∈ splitAt '\n' cs := by
  rw [splitAt_byteChars (by decide), List.mem_map]
  constructor
  · rintro ⟨line, hline, heq⟩
    rwa [← eq_of_byteChars_eq allAscii_fileEnd heq]
  · exact fun h => ⟨_, h, byteChars_of_allAscii allAscii_fileEnd⟩

/-- What the command of a unit says : a directory is made, and exactly the content is copied to
the file. -/
def contentWriting (path body : String) : Statement :=
  writing (quotedWord (byteText (directoryOf path)).toList) (quotedWord (byteText path).toList)
    [.quoted (byteText (withLineEnd body))]

/-- The command of a unit is read to its end exactly if no line of the content ends it. -/
theorem isReadAs_fileContent_iff (path body : String) :
    IsReadAs (byteText (contentCommand path body)) (contentWriting path body) ↔
      fileEnd ∉ Text.splitAt '\n' body := by
  obtain ⟨cs, hcs, hlines⟩ := exists_toList_withLineEnd body
  have htext : (byteText (contentCommand path body)).toList =
      writingChars (byteText (directoryOf path)).toList (byteText path).toList fileEnd.toList
        (byteChars cs ++ '\n' :: fileEnd.toList) := by
    rw [toList_byteText, toList_contentCommand hcs, byteChars_writingChars, byteChars_append,
      byteChars_cons, byteChars_of_allAscii allAscii_fileEnd, charBytes_of_isAscii (by decide),
      toList_byteText, toList_byteText]
    rfl
  have hcontent : byteText (withLineEnd body) = String.ofList (byteChars cs ++ ['\n']) := by
    have hend : byteChars ['\n'] = ['\n'] := byteChars_of_allAscii (by decide)
    rw [← String.toList_inj, toList_byteText, hcs, byteChars_append, String.toList_ofList, hend]
  have hmem : fileEnd.toList ∈ splitAt '\n' body.toList ↔ fileEnd ∈ Text.splitAt '\n' body := by
    rw [Text.splitAt, List.mem_map]
    constructor
    · exact fun h => ⟨_, h, String.ofList_toList⟩
    · rintro ⟨line, hline, heq⟩
      rwa [← heq, String.toList_ofList]
  have hne : fileEnd.toList ≠ [] := by decide +kernel
  rw [contentWriting, hcontent, isReadAs_writing_iff hne (by decide +kernel) htext,
    fileEnd_mem_splitAt_byteChars, ← hlines _ hne, hmem]

/-- A shell that can make the directory and open the file writes exactly the content of a unit to
the file, and the unit expects the checksum of these bytes. -/
theorem fileContent_writes {path body : String} (hbody : fileEnd ∉ Text.splitAt '\n' body)
    {fuel : Nat} {tested : Bool} {p q : Process} {target : String}
    (hmkdir : (invoke (fuel + 1) true true "mkdir" ["-p", byteText (directoryOf path)]).run
      { p with captured := none } = (.ok (), q))
    (hstatus : q.status = 0) (hcat : q.functions.lookup "cat" = none)
    (hopen : ((Run.openToWrite false (byteText path)).run
      { q with channels := p.channels, captured := none }).1 = .ok (.file target)) :
    ∃ command, (fileContent path body).config = some command ∧
      (script (fuel + 6) tested (byteText command)).run p =
        (.ok (), wrote { q with channels := p.channels } target (byteText (withLineEnd body))) ∧
      (fileContent path body).expected =
        Digest.cksum (toBytes (byteText (withLineEnd body))).toList := by
  rw [← String.ofList_toList (s := byteText (directoryOf path))] at hmkdir
  rw [← String.ofList_toList (s := byteText path)] at hopen
  have hrun : (Shell.run (fuel + 4) tested (contentWriting path body)).run p =
      (.ok (), wrote { q with channels := p.channels } target (byteText (withLineEnd body))) :=
    run_writing hmkdir hstatus hcat hopen
  have hscript := run_script ((isReadAs_fileContent_iff path body).mpr hbody) hrun
  have hbytes : toBytes (byteText (withLineEnd body)) = (withLineEnd body).toUTF8 :=
    toBytes_ofBytes _
  refine ⟨contentCommand path body, config_fileContent path body, hscript, ?_⟩
  rw [hbytes]
  rfl

/-- A shell whose `mkdir` succeeds. -/
def mkdirShell : Process where
  functions := [("mkdir", .nothing)]
  channels := [(1, .sink 0)]
  sinks := #[""]

theorem fileContent_writes_motd :
    ∃ command, (fileContent "/tmp/motd" "hi").config = some command ∧
      (script 8 false (byteText command)).run mkdirShell =
        (.ok (), wrote mkdirShell "/tmp/motd" (byteText (withLineEnd "hi"))) ∧
      (fileContent "/tmp/motd" "hi").expected =
        Digest.cksum (toBytes (byteText (withLineEnd "hi"))).toList := by
  have hbody : fileEnd ∉ Text.splitAt '\n' "hi" := by decide +kernel
  have hmkdir : (invoke 3 true true "mkdir" ["-p", byteText (directoryOf "/tmp/motd")]).run
      { mkdirShell with captured := none } = (.ok (), mkdirShell) := rfl
  have hopen : ((Run.openToWrite false (byteText "/tmp/motd")).run
      { mkdirShell with captured := none }).1 = .ok (.file "/tmp/motd") := by
    decide +kernel
  exact fileContent_writes hbody hmkdir rfl rfl hopen

/-- A line of the content ends it : the file holds only what stands in front of the line, and what
stands behind it is run. -/
theorem fileContent_cut :
    let unit := fileContent "/tmp/f" "a\nNETCONVERGE_EOF\necho b"
    let after := ((script 20 false (byteText (unit.config.getD ""))).run mkdirShell).2
    after.files = [("/tmp/f", "a\n")] ∧ after.sinks = #["b\n"] ∧ after.status = 127 ∧
      unit.expected ≠ Digest.cksum (toBytes "a\n").toList := by
  decide +kernel

end NetworkCompiler.ConfigUnit
