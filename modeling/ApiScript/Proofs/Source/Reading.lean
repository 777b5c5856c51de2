import ApiScript.Source.Reading
import Mathlib.Data.String.Basic
import Mathlib.Tactic.Common

/-! # What files hold

A name without slashes is the path to the file under it. Many paths lead to a file, but what they
lead to is the content of some file, read in one of two formats. So of finitely many files there are
finitely many lists of documents.
-/

namespace ApiScript

variable {files : Files} {tree : Files.Tree} {path text : String}

/-! ## Texts in files -/

theorem Json.parse?_of_written {v : Json} (h : parseWritten? text = some v) :
    parse? text = some v.normalise :=
  congrArg (Option.map normalise) h

namespace Files

variable {place : List String} {content : ByteArray}

theorem readText_of_toUTF8 (h : files path = .ok text.toUTF8) : files.readText path = .ok text := by
  rw [readText, h]
  dsimp only
  rw [show String.fromUTF8? text.toUTF8 = some text from dif_pos text.isValidUTF8]

open String in
theorem splitOnAux_of_notMem (seen : List Char) {rest : List Char} (h : '/' ∉ rest) :
    splitOnAux (ofList (seen ++ rest)) "/" 0 ⟨utf8Len seen⟩ 0 [] = [ofList (seen ++ rest)] := by
  induction rest generalizing seen with
  | nil =>
    have he := extract_of_valid [] seen []
    rw [splitOnAux, if_pos ((atEnd_of_valid seen []).mpr rfl)]
    simpa [-ofList_append] using he
  | cons c rest ih =>
    obtain ⟨hc, hrest⟩ := List.ne_and_not_mem_of_not_mem_cons h
    have hat : ¬ Pos.Raw.atEnd (ofList (seen ++ c :: rest)) ⟨utf8Len seen⟩ = true :=
      fun he => absurd ((atEnd_of_valid seen (c :: rest)).mp he) (List.cons_ne_nil _ _)
    have hget : Pos.Raw.get (ofList (seen ++ c :: rest)) ⟨utf8Len seen⟩ = c := get_of_valid ..
    have hne : ¬ (c == Pos.Raw.get "/" 0) = true := fun he => hc (beq_iff_eq.mp he).symm
    have hi : Pos.Raw.unoffsetBy ⟨utf8Len seen⟩ 0 = ⟨utf8Len seen⟩ := rfl
    rw [splitOnAux, if_neg hat, hget, if_neg hne, hi, next_of_valid]
    simpa [-ofList_append] using ih (seen ++ [c]) hrest

theorem splitOn_of_notMem (h : '/' ∉ path.toList) : path.splitOn "/" = [path] := by
  rw [String.splitOn, if_neg (by decide)]
  simpa using splitOnAux_of_notMem [] h

/-- A name without slashes is the path to what is found under it. -/
theorem ofTree_of_notMem (hs : '/' ∉ path.toList) (hz : '\x00' ∉ path.toList) (he : path ≠ "")
    (hl : path.utf8ByteSize ≤ 4095) : ofTree tree path = walk tree [] [path] := by
  have hn : namesOn path = .ok [path] := by
    rw [namesOn, splitOn_of_notMem hs, if_neg (by simpa using hz), if_neg (by simpa using he),
      if_neg (Nat.not_lt.mpr hl)]
    split
    · rename_i h
      exact absurd (List.cons.inj h).1 he
    · rfl
  unfold ofTree
  rw [hn]

/-! ## What is read is held -/

theorem mem_of_find (h : find tree place = .file content) : ∃ e ∈ tree, e.2 = content := by
  unfold find at h
  split at h
  · rename_i e he
    cases h
    exact ⟨e, List.mem_of_find?_eq_some he, rfl⟩
  · split at h <;> cases h

theorem mem_of_walk {names : List String} (h : walk tree place names = .ok content) :
    ∃ e ∈ tree, e.2 = content := by
  fun_induction walk tree place names with
  | case1 place found hf =>
    cases h
    exact mem_of_find hf
  | case2 | case3 | case4 | case5 | case6 | case9 => cases h
  | case7 _ _ _ _ _ _ ih | case8 _ _ _ _ _ _ ih | case10 _ _ _ _ _ _ _ ih => exact ih h

theorem mem_of_readText (h : (ofTree tree).readText path = .ok text) :
    ∃ e ∈ tree, String.fromUTF8? e.2 = some text := by
  unfold readText at h
  cases hp : ofTree tree path with
  | error f =>
    rw [hp] at h
    cases h
  | ok content =>
    obtain ⟨e, he, rfl⟩ : ∃ e ∈ tree, e.2 = content := by
      unfold ofTree at hp
      split at hp
      · cases hp
      · exact mem_of_walk hp
    rw [hp] at h
    dsimp only at h
    split at h
    · cases h
      exact ⟨e, he, ‹_›⟩
    · cases h

end Files

namespace Source

variable {v : Json} {locator : String}

theorem parse_json (h : Json.parse? text = some v) : parse false text = .ok v := by
  rw [parse, if_neg Bool.false_ne_true, h]

theorem read_of_error {f : FileFault} (hl : Locator.ofText locator = .localPath path)
    (hf : files path = .error f) :
    read files locator = .error [s!"Failed to read script file: {path}", f.message] := by
  have ht : files.readText path = .error f := by rw [Files.readText, hf]
  rw [read, hl]
  dsimp only
  rw [ht]

theorem read_of_toUTF8
    (hl : Locator.ofText locator = .localPath path) (hf : files path = .ok text.toUTF8)
    (hv : parse (Locator.isYamlPath path) text = .ok v) :
    read files locator = .ok (documents v) := by
  rw [read, hl]
  dsimp only
  rw [Files.readText_of_toUTF8 hf]
  dsimp only
  rw [hv]

def documentsIn (isYaml : Bool) (content : ByteArray) : List Json :=
  match String.fromUTF8? content with
  | none => []
  | some text =>
    match parse isYaml text with
    | .error _ => []
    | .ok v => documents v

/-- All lists of documents in some files, each of which is read in both formats. -/
def held (tree : Files.Tree) : List (List Json) :=
  tree.flatMap fun e => [documentsIn false e.2, documentsIn true e.2]

theorem mem_held {loaded : List Json}
    (h : read (Files.ofTree tree) locator = .ok loaded) : loaded ∈ held tree := by
  unfold read at h
  split at h
  · cases h
  · rename_i path _
    split at h
    · cases h
    · rename_i text ht
      split at h
      · cases h
      · rename_i v hv
        cases h
        obtain ⟨e, he, htext⟩ := Files.mem_of_readText ht
        refine List.mem_flatMap.mpr ⟨e, he, ?_⟩
        have hd : documentsIn (Locator.isYamlPath path) e.2 = documents v := by
          simp only [documentsIn, htext, hv]
        cases hy : Locator.isYamlPath path with
        | false => simp [← hd, hy]
        | true => simp [← hd, hy]

end Source

end ApiScript
