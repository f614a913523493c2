import Mathlib.Tactic.SplitIfs
import PolicyCheck.Proofs.Datalog.Relation
import PolicyCheck.Proofs.Host.FilePath
import PolicyCheck.Proofs.Interpreter.Deed
import PolicyCheck.Proofs.Text.Utf8

/-!
# Relations in the output directory

Where the files of the output directory are texts, every one of them is loaded, and each relation has
the rows that its file holds. What is loaded from a file that rows were written to are these rows, and
what a file held is what its rows are written as, each within the bounds of `Relation.ofText_text` and
`Relation.text_ofText`.
-/

namespace PolicyCheck.Interpreter.Workspace

open Datalog (Relation Relations)

/-- A file holds a relation if its name has the extension `csv`; the relation is named by the rest. -/
theorem relationName?_eq_some_iff {name relation : String} :
    relationName? name = some relation ↔ name = relation ++ ".csv" ∧ relation ≠ "" := by
  rw [relationName?]
  constructor
  · intro h
    split at h
    · rename_i stem hcut
      obtain rfl := Option.some.inj h
      obtain ⟨rfl, hstem⟩ := FilePath.eq_of_cutExtension hcut
      exact ⟨String.append_assoc, hstem⟩
    · cases h
  · rintro ⟨rfl, hne⟩
    have hname : relation ++ ".csv" = relation ++ "." ++ "csv" := by
      rw [String.append_assoc]
      rfl
    rw [hname, FilePath.cutExtension_append hne (by decide)]
    rfl

theorem exists_relationName?_iff {names : List String} {relation : String} (hne : relation ≠ "") :
    (∃ name ∈ names, relationName? name = some relation) ↔ relation ++ ".csv" ∈ names := by
  constructor
  · rintro ⟨name, hname, hrelation⟩
    exact (relationName?_eq_some_iff.1 hrelation).1 ▸ hname
  · exact fun hname => ⟨_, hname, relationName?_eq_some_iff.2 ⟨rfl, hne⟩⟩

/-- The output directory is there, and of the relations those with a text have a file, which holds it. -/
def Holds (h : Host) (w : Workspace) (texts : String → Option String) : Prop :=
  ∃ dir names, w.outputDir? = some dir ∧ h.list dir = .ok names ∧
    ∀ relation, relation ≠ "" → ((texts relation).isSome ↔ relation ++ ".csv" ∈ names) ∧
      ∀ text ∈ texts relation,
        h.files.read h.directory (dir.join ⟨relation ++ ".csv"⟩) = .ok (Text.Utf8.encode text.toList)

variable {h : Host} {w : Workspace} {dir : FilePath} {texts : String → Option String}

/-- Files are loaded one by one when they are texts, and each relation in one of them is that of its text. -/
theorem exists_foldlM_loadFile {names : List String}
    (hread : ∀ name ∈ names, ∀ relation, relationName? name = some relation →
      ∃ text, texts relation = some text ∧ h.readText (dir.join ⟨name⟩) = .ok text) (before : Relations) :
    ∃ relations, names.foldlM (loadFile h dir) before = .ok relations ∧
      ∀ relation, relations.get? relation =
        if ∃ name ∈ names, relationName? name = some relation then (texts relation).map .ofText
        else before.get? relation := by
  induction names generalizing before with
  | nil => exact ⟨before, rfl, fun relation => by simp⟩
  | cons name names ih =>
    obtain ⟨hname, hnames⟩ := List.forall_mem_cons.1 hread
    cases hrelation : relationName? name with
    | none =>
      obtain ⟨relations, hload, hget⟩ := ih hnames before
      refine ⟨relations, ?_, fun relation => ?_⟩
      · rw [List.foldlM_cons, loadFile, hrelation]
        exact hload
      · rw [hget]
        simp [hrelation]
    | some own =>
      obtain ⟨text, htext, hown⟩ := hname own hrelation
      obtain ⟨relations, hload, hget⟩ := ih hnames (before.insert own (.ofText text))
      refine ⟨relations, ?_, fun relation => ?_⟩
      · rw [List.foldlM_cons, loadFile, hrelation]
        simp only [hown]
        exact hload
      · rw [hget, Dictionary.get?_insert]
        by_cases heq : relation = own
        · subst heq
          simp [hrelation, htext]
        · simp [hrelation, heq, Ne.symm heq]

theorem load_of_holds (hholds : Holds h w texts) : ∃ relations, load h w = .ok relations ∧
    ∀ relation, relation ≠ "" → relations.get? relation = (texts relation).map .ofText := by
  obtain ⟨dir, names, hw, hlist, htexts⟩ := hholds
  have hread : ∀ name ∈ names, ∀ relation, relationName? name = some relation →
      ∃ text, texts relation = some text ∧ h.readText (dir.join ⟨name⟩) = .ok text := by
    intro name hname relation hrelation
    obtain ⟨rfl, hne⟩ := relationName?_eq_some_iff.1 hrelation
    obtain ⟨hlisted, hcontents⟩ := htexts relation hne
    obtain ⟨text, htext⟩ := Option.isSome_iff_exists.1 (hlisted.2 hname)
    refine ⟨text, htext, readText_eq_ok_iff.2 ⟨_, hcontents text htext, text.toList, ?_, ?_⟩⟩
    · exact Text.Utf8.decode?_encode text.toList
    · exact String.ofList_toList
  obtain ⟨relations, hload, hget⟩ := exists_foldlM_loadFile hread ∅
  refine ⟨relations, ?_, fun relation hne => ?_⟩
  · rw [load, hw]
    simp only [hlist]
    exact hload
  · have hlisted : (∃ name ∈ names, relationName? name = some relation) ↔ (texts relation).isSome := by
      rw [exists_relationName?_iff hne, (htexts relation hne).1]
    rw [hget]
    cases htext : texts relation <;> simp [hlisted, htext]

/-- Loading inverts writing: rows written to a file come back, those with a carriage return at the end
without it, and whole lines without carriage returns are what the rows loaded from them are written as. -/
theorem load_inverts_text (hholds : Holds h w texts) : ∃ relations, load h w = .ok relations ∧
    ∀ relation, relation ≠ "" → ∀ content, texts relation = some content →
      ∃ loaded, relations.get? relation = some loaded ∧
        (∀ rows, (∀ row ∈ rows, Relation.Writable row) → content = Relation.text rows →
          loaded = rows.map Relation.chomp ∧
            ((∀ row ∈ rows, ∀ cell ∈ row.getLast?, cell.toList.getLast? ≠ some '\r') → loaded = rows)) ∧
        ('\r' ∉ content.toList → content = "" ∨ content.toList.getLast? = some '\n' →
          Relation.text loaded = content) := by
  obtain ⟨relations, hload, hget⟩ := load_of_holds hholds
  refine ⟨relations, hload, fun relation hne content hcontent => ⟨.ofText content, ?_, ?_, ?_⟩⟩
  · rw [hget relation hne, hcontent, Option.map_some]
  · rintro rows hrows rfl
    refine ⟨Relation.ofText_text hrows, fun hends => ?_⟩
    rw [Relation.ofText_text hrows, List.map_congr_left fun row hrow => Relation.chomp_of_getLast? (hends row hrow)]
    exact List.map_id' rows
  · exact Relation.text_ofText

namespace TwoFiles

/-- Rows with an empty cell at the end, with an empty cell alone, and with a carriage return. -/
def rows : Relation := [["a", ""], [""], ["b\r", "c\r"]]

/-- Lines without a cell in front, and one without text. -/
def content : String := "\tx\n\n"

def written (relation : String) : Option String :=
  if relation = "rows" then some (Relation.text rows) else if relation = "lines" then some content else none

def host : Host where
  files := ⟨[(["out"], .directory),
    (["out", "rows.csv"], .file (Text.Utf8.encode (Relation.text rows).toList) false),
    (["out", "lines.csv"], .file (Text.Utf8.encode content.toList) false),
    (["out", "notes.txt"], .file [0xFF] false)]⟩

def workspace : Workspace where
  root := ["tmp"]
  binary := ⟨"/souffle"⟩
  outputDir? := some ⟨"/out"⟩
  includeDir := ⟨"/tmp"⟩
  factDir := ⟨"/tmp"⟩
  libraryDir := ⟨"/tmp"⟩

theorem holds_written : Holds host workspace written := by
  refine ⟨⟨"/out"⟩, ["rows.csv", "lines.csv", "notes.txt"], rfl, rfl, fun relation hne => ⟨?_, ?_⟩⟩
  · have hnames : ["rows.csv", "lines.csv", "notes.txt"].map relationName? = [some "rows", some "lines", none] := by
      decide +kernel
    have hmem : (∃ name ∈ ["rows.csv", "lines.csv", "notes.txt"], relationName? name = some relation) ↔
        some relation ∈ [some "rows", some "lines", none] := by
      rw [← hnames, List.mem_map]
    rw [← exists_relationName?_iff hne, hmem, written]
    split_ifs <;> simp_all
  · intro text htext
    rw [written] at htext
    split_ifs at htext with hrows hlines
    · subst hrows
      cases htext
      rfl
    · subst hlines
      cases htext
      rfl
    · cases htext

end TwoFiles

open TwoFiles in
theorem load_inverts_text_two : ∃ relations, load host workspace = .ok relations ∧
    relations.get? "rows" = some [["a", ""], [""], ["b\r", "c"]] ∧
    ∃ loaded, relations.get? "lines" = some loaded ∧ Relation.text loaded = "\tx\n\n" := by
  have hwritable : ∀ row ∈ rows, Relation.Writable row := by
    have hcells : ∀ row ∈ rows, row ≠ [] ∧
        ∀ cell ∈ row, Relation.separator ∉ cell.toList ∧ Text.OneLine cell := by decide
    exact fun row hrow => ⟨(hcells row hrow).1, (hcells row hrow).2⟩
  obtain ⟨relations, hload, hinverts⟩ := load_inverts_text holds_written
  obtain ⟨read, hread, hrows, -⟩ := hinverts "rows" (by decide) _ rfl
  obtain ⟨loaded, hloaded, -, hlines⟩ := hinverts "lines" (by decide) content rfl
  refine ⟨relations, hload, ?_, loaded, hloaded, hlines (by decide) (.inr (by decide))⟩
  rw [hread, (hrows rows hwritable rfl).1]
  decide

end PolicyCheck.Interpreter.Workspace
