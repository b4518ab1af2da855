import NostdbServer.Http.Adapter

/-!
# The response to a query

`response` sends the result of a statement as one JSON document or, for a read
that is streamed, as lines: a header and an object for each row. A value never
takes more than one line, and the objects looked up by the header's columns give
back the table of the document. How a float is written is a parameter.
-/

namespace NostdbServer.Http

open Effects

structure Response where
  status : StatusCode
  contentType : String
  chunks : List String

def Response.body (response : Response) : String := String.join response.chunks

section
variable (floatText : UInt64 → String)

/-- The first line of a stream. -/
def streamHeader (result : QueryResult) : Json := .object
  [("columns", .strings result.columns), ("ordered", .bool result.ordered)]

/-- Writing a `Value` cannot fail. -/
def response (result : StatementResult) (streaming : Bool) : Response :=
  match streaming, result with
  | true, .read result => ⟨.ok, "application/x-ndjson",
      (streamHeader result).text floatText :: "\n" :: result.rows.flatMap fun row =>
        [(rowObject result.columns row).text floatText, "\n"]⟩
  | _, _ => ⟨.ok, "application/json", [(statementJson result).text floatText]⟩

end

-- ---------------------------------------------------------------------------
-- Looking up fields
-- ---------------------------------------------------------------------------

section
variable {name other : String} {value : Json} {fields : List (String × Json)}

theorem field?_cons (field : String × Json) (rest : List (String × Json)) :
    (Json.object (field :: rest)).field? name =
      if field.1 = name then some field.2 else (Json.object rest).field? name := by
  by_cases h : field.1 = name <;> simp [Json.field?, h]

theorem field?_insertField : (Json.object (Json.insertField name value fields)).field? other =
    if name = other then some value else (Json.object fields).field? other := by
  induction fields with
  | nil => exact field?_cons (name, value) []
  | cons field rest ih =>
    obtain ⟨first, old⟩ := field
    simp only [Json.insertField]
    split
    · exact field?_cons (name, value) _
    split
    · rename_i h
      subst h
      rw [field?_cons, field?_cons]
      split <;> rfl
    · rename_i h
      rw [field?_cons, field?_cons, ih]
      by_cases hfirst : first = other
      · subst hfirst
        simp [h]
      · simp [hfirst]

theorem field?_collect_of_not_mem {rest : List (String × Json)} (h : name ∉ rest.map Prod.fst) :
    (Json.object (rest.foldl (fun map field => Json.insertField field.1 field.2 map) fields)).field?
      name = (Json.object fields).field? name := by
  induction rest generalizing fields with
  | nil => rfl
  | cons field rest ih =>
    rw [List.map_cons, List.mem_cons, not_or] at h
    rw [List.foldl_cons, ih h.2, field?_insertField, if_neg (Ne.symm h.1)]

/-- Of fields with different names none is lost. -/
theorem field?_collectFields {all : List (String × Json)} (hnodup : (all.map Prod.fst).Nodup)
    (h : (name, value) ∈ all) : (Json.object (Json.collectFields all)).field? name = some value := by
  unfold Json.collectFields
  generalize [] = fields
  induction all generalizing fields with
  | nil => cases h
  | cons field rest ih =>
    rw [List.map_cons, List.nodup_cons] at hnodup
    rw [List.foldl_cons]
    rcases List.mem_cons.mp h with rfl | h
    · rw [field?_collect_of_not_mem hnodup.1, field?_insertField, if_pos rfl]
    · exact ih hnodup.2 h _

end

theorem rowObject_lookup {columns : List String} {row : List QueryValue} (hcolumns : columns.Nodup)
    (hrow : row.length = columns.length) :
    columns.map (rowObject columns row).field? = (row.map queryValueJson).map some := by
  refine List.ext_getElem (by simp [hrow]) fun i hi _ => ?_
  rw [List.length_map] at hi
  have hirow : i < row.length := hrow ▸ hi
  rw [List.getElem_map, List.getElem_map, List.getElem_map]
  refine field?_collectFields ?_ ?_
  · rw [List.map_map]
    have hnames : columns.zipIdx.map Prod.fst = columns := List.zipIdx_map_fst 0 columns
    exact hnames.symm ▸ hcolumns
  · refine List.mem_map.mpr ⟨(columns[i], i), ?_, ?_⟩
    · exact List.mem_iff_getElem?.mpr ⟨i, by simp [hi]⟩
    · simp [hirow]

-- ---------------------------------------------------------------------------
-- One line for each value
-- ---------------------------------------------------------------------------

section
variable {floatText : UInt64 → String}

theorem hexDigit_ne_newline (n : Nat) : Json.hexDigit n ≠ '\n' := by
  have h : ∀ k < 16, Nat.digitChar k ≠ '\n' := by decide
  exact h _ (Nat.mod_lt _ (by decide))

theorem escape_no_newline (c : Char) : '\n' ∉ (Json.escape c).toList := by
  unfold Json.escape
  split_ifs with h₁ h₂ h₃ h₄ h₅ h₆ h₇ h₈
  all_goals try decide
  · simp [Ne.symm (hexDigit_ne_newline _)]
  · simpa [eq_comm] using h₅

theorem quoted_no_newline (s : String) : '\n' ∉ (Json.quoted s).toList := by
  unfold Json.quoted
  simp only [String.toList_append, String.toList_join, List.mem_append, List.mem_flatMap,
    List.mem_map, not_or]
  refine ⟨⟨by decide, ?_⟩, by decide⟩
  rintro ⟨_, ⟨c, -, rfl⟩, hc⟩
  exact escape_no_newline c hc

theorem nat_no_newline (n : Nat) : '\n' ∉ (toString n).toList := by
  intro h
  have hdigit := Nat.isDigit_of_mem_toDigits (by decide) (by decide) (Nat.toList_repr ▸ h)
  revert hdigit
  decide

theorem int_no_newline (i : Int) : '\n' ∉ (toString i).toList := by
  cases i with
  | ofNat n => exact nat_no_newline n
  | negSucc n =>
    change '\n' ∉ ("-" ++ toString (n + 1)).toList
    rw [String.toList_append, List.mem_append, not_or]
    exact ⟨by decide, nat_no_newline _⟩

mutual

theorem text_no_newline (hfloat : ∀ bits, '\n' ∉ (floatText bits).toList) :
    ∀ value : Json, '\n' ∉ (value.text floatText).toList
  | .null | .bool true | .bool false => by rw [Json.text]; decide
  | .number (.posInt n) => nat_no_newline n
  | .number (.negInt i) => int_no_newline i
  | .number (.float bits) => hfloat bits
  | .string s => quoted_no_newline s
  | .array values => by
    rw [Json.text, String.toList_append, String.toList_append]
    simp [elements_no_newline hfloat values]
  | .object fields => by
    rw [Json.text, String.toList_append, String.toList_append]
    simp [members_no_newline hfloat fields]

theorem elements_no_newline (hfloat : ∀ bits, '\n' ∉ (floatText bits).toList) :
    ∀ values : List Json, '\n' ∉ (Json.elements floatText values).toList
  | [] => by rw [Json.elements]; decide
  | [value] => text_no_newline hfloat value
  | value :: next :: rest => by
    rw [Json.elements, String.toList_append, String.toList_append]
    · simp [text_no_newline hfloat value, elements_no_newline hfloat (next :: rest)]
    · simp

theorem members_no_newline (hfloat : ∀ bits, '\n' ∉ (floatText bits).toList) :
    ∀ fields : List (String × Json), '\n' ∉ (Json.members floatText fields).toList
  | [] => by rw [Json.members]; decide
  | [(name, value)] => by
    rw [Json.members, String.toList_append, String.toList_append]
    simp [quoted_no_newline, text_no_newline hfloat value]
  | (name, value) :: next :: rest => by
    rw [Json.members, String.toList_append, String.toList_append, String.toList_append,
      String.toList_append]
    · simp [quoted_no_newline, text_no_newline hfloat value, members_no_newline hfloat (next :: rest)]
    · simp

end

end

/-- Lines that are each ended are what splitting gives, with nothing after the last. -/
theorem splitOn_ended_lines {lines : List (List Char)} (h : ∀ line ∈ lines, '\n' ∉ line) :
    (lines.flatMap (· ++ ['\n'])).splitOn '\n' = lines ++ [[]] := by
  have hjoin : ∀ ls : List (List Char),
      ls.flatMap (· ++ ['\n']) = ['\n'].intercalate (ls ++ [[]]) := by
    intro ls
    induction ls with
    | nil => rfl
    | cons line rest ih =>
      rw [List.flatMap_cons, ih, List.cons_append,
        List.intercalate_cons_of_ne_nil (List.append_ne_nil_of_right_ne_nil _ (List.cons_ne_nil _ _))]
  rw [hjoin]
  refine List.splitOn_intercalate '\n' (fun line hline => ?_)
    (List.append_ne_nil_of_right_ne_nil _ (List.cons_ne_nil _ _))
  rcases List.mem_append.mp hline with hline | hline
  · exact h line hline
  · rw [List.mem_singleton.mp hline]
    exact List.not_mem_nil

/-- The lines of a stream: the header and the row objects. -/
def streamLines (result : QueryResult) : List Json :=
  streamHeader result :: result.rows.map (rowObject result.columns)

theorem response_stream_body (floatText : UInt64 → String) (result : QueryResult) :
    (response floatText (.read result) true).body.toList =
      ((streamLines result).map fun line => (line.text floatText).toList).flatMap (· ++ ['\n']) := by
  have hrows : ∀ rows : List (List QueryValue),
      (String.join (rows.flatMap fun row =>
        [(rowObject result.columns row).text floatText, "\n"])).toList =
      ((rows.map (rowObject result.columns)).map fun line =>
        (line.text floatText).toList).flatMap (· ++ ['\n']) := by
    intro rows
    induction rows with
    | nil => rfl
    | cons row rest ih =>
      simp only [List.flatMap_cons, List.map_cons, List.cons_append, List.nil_append,
        String.join_cons, String.toList_append, ih, List.append_assoc]
      rfl
  simp only [response, Response.body, streamLines, String.join_cons, String.toList_append, hrows,
    List.map_cons, List.flatMap_cons, List.append_assoc]
  rfl

/-- The stream has a line for the header and one for each row, and looking up the
header's columns in the row objects gives the table of the document. -/
theorem stream_carries_document_table (floatText : UInt64 → String)
    (hfloat : ∀ bits, '\n' ∉ (floatText bits).toList) (result : QueryResult)
    (hcolumns : result.columns.Nodup)
    (hrows : ∀ row ∈ result.rows, row.length = result.columns.length) :
    ∃ (header document table : Json) (rows : List Json) (cells : List (List Json)),
      (response floatText (.read result) true).body.toList.splitOn '\n' =
        (header :: rows).map (fun line => (line.text floatText).toList) ++ [[]] ∧
      rows.length = result.rows.length ∧
      (response floatText (.read result) false).body = document.text floatText ∧
      document.field? "result" = some table ∧
      header.field? "columns" = some (.strings result.columns) ∧
      table.field? "columns" = some (.strings result.columns) ∧
      header.field? "ordered" = table.field? "ordered" ∧
      table.field? "ordered" = some (.bool result.ordered) ∧
      rows.map (fun row => result.columns.map row.field?) = cells.map (·.map some) ∧
      table.field? "rows" = some (.array (cells.map .array)) := by
  refine ⟨streamHeader result, statementJson (.read result), queryResult result,
    result.rows.map (rowObject result.columns), result.rows.map (·.map queryValueJson),
    ?_, List.length_map _, ?_, rfl, rfl, rfl, rfl, rfl, ?_, ?_⟩
  · rw [response_stream_body]
    refine splitOn_ended_lines fun line hline => ?_
    obtain ⟨value, -, rfl⟩ := List.mem_map.mp hline
    exact text_no_newline hfloat value
  · simp [response, Response.body, String.join_cons]
  · rw [List.map_map, List.map_map]
    exact List.map_congr_left fun row hrow => rowObject_lookup hcolumns (hrows row hrow)
  · rw [List.map_map]
    rfl

/-- The columns are not in the order of their names, and the values are nested. -/
def unsortedTable : QueryResult where
  columns := ["name", "age"]
  rows := [[.string "a\nb", .list [.integer (-1), .map [("k", .null)]]], [.null, .boolean true]]
  ordered := true

theorem stream_carries_document_table_unsorted :
    unsortedTable.columns.Nodup ∧
    ∃ (header document table : Json) (rows : List Json) (cells : List (List Json)),
      (response (fun _ => "0.0") (.read unsortedTable) true).body.toList.splitOn '\n' =
        (header :: rows).map (fun line => (line.text fun _ => "0.0").toList) ++ [[]] ∧
      rows.length = unsortedTable.rows.length ∧
      (response (fun _ => "0.0") (.read unsortedTable) false).body =
        document.text (fun _ => "0.0") ∧
      document.field? "result" = some table ∧
      header.field? "columns" = some (.strings unsortedTable.columns) ∧
      table.field? "columns" = some (.strings unsortedTable.columns) ∧
      header.field? "ordered" = table.field? "ordered" ∧
      table.field? "ordered" = some (.bool unsortedTable.ordered) ∧
      rows.map (fun row => unsortedTable.columns.map row.field?) = cells.map (·.map some) ∧
      table.field? "rows" = some (.array (cells.map .array)) :=
  ⟨by decide, stream_carries_document_table (fun _ => "0.0") (fun _ => by decide) unsortedTable
    (by decide) (by decide)⟩

end NostdbServer.Http
