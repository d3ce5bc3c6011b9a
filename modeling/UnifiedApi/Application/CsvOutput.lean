import Mathlib.Data.String.Basic
import UnifiedApi.Application.Output
import UnifiedApi.Lib.Csv

/-! # CSV output

A header row and one row for each host that is rendered, sorted by its name. -/

namespace UnifiedApi.Output

/-- Quoted only where the text needs it, with embedded quotes doubled. -/
def csvField (raw : String) : String :=
  let chars := raw.toList
  if chars.contains ',' || chars.contains '"' || chars.contains '\n' || chars.contains '\r' then
    "\"" ++ String.ofList (chars.flatMap fun c => if c = '"' then ['"', '"'] else [c]) ++ "\""
  else raw

/-- A missing or null variable is an empty cell, and anything structured is
compact JSON. -/
def csvValue (ops : TextOps) : Option Json → String
  | none | some .null => ""
  | some (.string s) => s
  | some other => String.ofList (ops.jsonText other)

/-- The chosen columns, or every variable there is. -/
def csvColumns (config : StrMap String) (params : Json) (hostvars : StrMap HostVars) :
    List String :=
  let columns := Text.commaNames (setting params config "fields")
  if columns.isEmpty then ((hostvars.toList.flatMap fun host => host.2.keys).eraseDups).mergeSort
  else columns

/-- A column may be a dotted path. -/
def csvCell (ops : TextOps) (vars : HostVars) (column : String) : String :=
  csvValue ops (VarPath.lookup vars column)

def renderCsv (ops : TextOps) (datasets : StrMap Dataset) (config : StrMap String)
    (params : Json) : String :=
  let hostvars := (mergeAndFilter ops datasets config params).hostvars
  let columns := csvColumns config params hostvars
  let header := columns.foldl (fun out column => out ++ "," ++ csvField column) "host" ++ "\n"
  hostvars.toList.foldl (fun out host =>
      columns.foldl (fun out column => out ++ "," ++ csvField (csvCell ops host.2 column))
        (out ++ csvField host.1) ++ "\n")
    header

/-! ## What is written is read back -/

theorem csvField_cell (raw : String) : Csv.Cell (csvField raw).toList raw.toList := by
  unfold csvField
  dsimp only
  split
  · simp only [String.toList_append, String.toList_ofList]
    exact .quoted raw.toList
  · rename_i hplain
    refine .bare (List.all_eq_true.mpr fun c hc => ?_)
    have hother : c ≠ ',' ∧ c ≠ '"' ∧ c ≠ '\n' ∧ c ≠ '\r' := by
      refine ⟨?_, ?_, ?_, ?_⟩ <;> rintro rfl <;> simp [hc] at hplain
    simp [Csv.special, hother]

theorem toList_foldl_cells (write : String → String) (columns : List String) (out : String) :
    (columns.foldl (fun out column => out ++ "," ++ csvField (write column)) out).toList =
      out.toList ++ (columns.map fun column => (csvField (write column)).toList).flatMap
        (',' :: ·) := by
  induction columns generalizing out with
  | nil => simp
  | cons column rest ih =>
    rw [List.foldl_cons, ih, List.map_cons, List.flatMap_cons, String.toList_append,
      String.toList_append, List.append_assoc, List.append_assoc]
    rfl

/-- The text of one row. -/
theorem toList_row (write : String → String) (columns : List String) (out first : String) :
    (columns.foldl (fun out column => out ++ "," ++ csvField (write column))
        (out ++ first) ++ "\n").toList =
      out.toList ++ Csv.line first.toList
        (columns.map fun column => (csvField (write column)).toList) := by
  rw [String.toList_append, toList_foldl_cells, String.toList_append, List.append_assoc,
    List.append_assoc]
  simp [Csv.line]

theorem forall₂_cells (write : String → String) (columns : List String) :
    List.Forall₂ Csv.Cell (columns.map fun column => (csvField (write column)).toList)
      (columns.map fun column => (write column).toList) := by
  rw [List.forall₂_map_left_iff, List.forall₂_map_right_iff]
  exact List.forall₂_same.mpr fun column _ => csvField_cell (write column)

theorem renderCsv_toList (ops : TextOps) (datasets : StrMap Dataset) (config : StrMap String)
    (params : Json) :
    let hostvars := (mergeAndFilter ops datasets config params).hostvars
    let columns := csvColumns config params hostvars
    (renderCsv ops datasets config params).toList =
      Csv.line "host".toList (columns.map fun column => (csvField column).toList) ++
        hostvars.toList.flatMap fun host => Csv.line (csvField host.1).toList
          (columns.map fun column => (csvField (csvCell ops host.2 column)).toList) := by
  intro hostvars columns
  have hrows (hosts : List (String × HostVars)) (out : String) :
      (hosts.foldl (fun out host =>
          columns.foldl (fun out column => out ++ "," ++ csvField (csvCell ops host.2 column))
            (out ++ csvField host.1) ++ "\n") out).toList =
        out.toList ++ hosts.flatMap fun host => Csv.line (csvField host.1).toList
          (columns.map fun column => (csvField (csvCell ops host.2 column)).toList) := by
    induction hosts generalizing out with
    | nil => simp
    | cons host rest ih =>
      rw [List.foldl_cons, ih, toList_row, List.flatMap_cons, List.append_assoc]
  have hheader : (columns.foldl (fun out column => out ++ "," ++ csvField column) "host" ++
      "\n").toList =
        Csv.line "host".toList (columns.map fun column => (csvField column).toList) := by
    have h := toList_row (fun column => column) columns "" "host"
    rwa [String.empty_append, String.toList_empty, List.nil_append] at h
  rw [renderCsv, hrows]
  rw [hheader]

/-- **What is written is well formed.** Read as RFC 4180 with line feeds, the
text is a header of `host` and the columns, and a row as wide for each host that
is rendered, in the order of the names, with the host's value in each column. -/
theorem renderCsv_read (ops : TextOps) (datasets : StrMap Dataset) (config : StrMap String)
    (params : Json) :
    let hostvars := (mergeAndFilter ops datasets config params).hostvars
    let columns := csvColumns config params hostvars
    ∃ rows : List (List String),
      Csv.read (renderCsv ops datasets config params).toList =
        some (rows.map (·.map String.toList)) ∧
      (∀ row ∈ rows, row.length = columns.length + 1) ∧
      ∃ hosts : List String, hosts.Pairwise (· < ·) ∧ (∀ host, host ∈ hosts ↔ host ∈ hostvars) ∧
        rows = ("host" :: columns) :: hosts.map fun host => host :: columns.map fun column =>
          csvValue ops (hostvars[host]?.bind (VarPath.lookup · column)) := by
  intro hostvars columns
  let row (host : String) : List String := host :: columns.map fun column =>
    csvValue ops (hostvars[host]?.bind (VarPath.lookup · column))
  refine ⟨("host" :: columns) :: hostvars.keys.map row, ?_, ?_, hostvars.keys, ?_, ?_, rfl⟩
  · have hheader : Csv.Cell "host".toList "host".toList := .bare (by decide)
    have hread := Csv.read_table hheader (forall₂_cells (fun column => column) columns)
      hostvars.toList (fun host => csvField_cell host.1)
      (fun host => forall₂_cells (csvCell ops host.2) columns)
    rw [renderCsv_toList]
    refine hread.trans (congrArg some ?_)
    rw [List.map_cons, List.map_cons]
    refine congrArg (_ :: ·) ?_
    rw [← Std.ExtTreeMap.map_fst_toList_eq_keys, List.map_map, List.map_map]
    refine List.map_congr_left fun host hhost => ?_
    have hvars : hostvars[host.1]? = some host.2 :=
      Std.ExtTreeMap.mem_toList_iff_getElem?_eq_some.mp hhost
    simp [row, hvars, csvCell]
  · intro cells hcells
    rcases List.mem_cons.mp hcells with rfl | hcells
    · rfl
    · obtain ⟨host, _, rfl⟩ := List.mem_map.mp hcells
      simp [row]
  · exact (Std.ExtTreeMap.ordered_keys : hostvars.keys.Pairwise _).imp fun hlt =>
      compare_lt_iff_lt.mp hlt
  · intro host
    exact Std.ExtTreeMap.mem_keys

end UnifiedApi.Output
