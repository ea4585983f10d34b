import ResourceQuery.Store.Row

/-!
# Store — what a row is built to

* `Row.Built`: either the row has one member for each column, in order, with the field of the column
  and the value of its cell, or the first cell that cannot be read is reported under the name of its
  column.
* `Row.built_build`: this is what a row is built to, if no field is repeated.  A repeated field
  would overwrite the cell before it.
-/

namespace ResourceQuery

namespace Row

/-- What a row for `columns` comes to: the first cell that cannot be read, or the members for all of
them. -/
inductive Built (b : Backend) (read : Nat → ColumnType → Except String Cell)
    (columns : List Projected) : Except DataError Row → Prop where
  | failed {i : Nat} {c : Projected} {reason : String} (column : columns[i]? = some c)
      (unreadable : read i c.column.type = .error reason)
      (before : ∀ j < i, ∀ d, columns[j]? = some d → ∃ cell, read j d.column.type = .ok cell) :
      Built b read columns (.error (.decode b c.column.name reason))
  | row {row : Row} (keys : row.map Prod.fst = columns.map Projected.field)
      (cells : ∀ i c, columns[i]? = some c →
        ∃ cell, read i c.column.type = .ok cell ∧ row[i]? = some (c.field, cell.toJson)) :
      Built b read columns (.ok row)

variable {b : Backend} {read : Nat → ColumnType → Except String Cell}

/-- A cell that is read goes before those that follow. -/
theorem Built.cons {c : Projected} {columns : List Projected} {cell : Cell}
    (h : read 0 c.column.type = .ok cell) {r : Except DataError Row}
    (hr : Built b (fun i => read (i + 1)) columns r) :
    Built b read (c :: columns) (r.map fun row => (c.field, cell.toJson) :: row) := by
  cases hr with
  | @failed i d reason column unreadable before =>
      refine .failed (i := i + 1) column unreadable ?_
      intro j hj e he
      cases j with
      | zero =>
          cases he
          exact ⟨cell, h⟩
      | succ j => exact before j (Nat.lt_of_succ_lt_succ hj) e he
  | row keys cells =>
      refine .row (congrArg (c.field :: ·) keys) ?_
      intro i d hd
      cases i with
      | zero =>
          cases hd
          exact ⟨cell, h, rfl⟩
      | succ i => exact cells i d hd

/-- The cells from number `i` on are put behind the members before them, as these have other
fields. -/
theorem built_buildFrom : ∀ {columns : List Projected} {i : Nat} {row : Row},
    (row.map Prod.fst ++ columns.map Projected.field).Nodup →
      ∃ r, Built b (fun j => read (j + i)) columns r ∧
        buildFrom b read i row columns = r.map fun rest => row ++ rest
  | [], i, row, _ => ⟨.ok [], .row rfl nofun, congrArg Except.ok (List.append_nil row).symm⟩
  | c :: columns, i, row, h => by
      have hfirst : 0 + i = i := Nat.zero_add i
      rw [buildFrom]
      cases hread : read i c.column.type with
      | error reason => exact ⟨_, .failed (i := 0) rfl (by rw [hfirst, hread]) nofun, rfl⟩
      | ok cell =>
          have hnew : c.field ∉ row.map Prod.fst := by
            intro hmem
            exact (List.nodup_append.mp h).2.2 _ hmem _ List.mem_cons_self rfl
          have hrest : ((row ++ [(c.field, cell.toJson)]).map Prod.fst ++
              columns.map Projected.field).Nodup := by
            simpa using h
          obtain ⟨r, hr, hbuild⟩ := built_buildFrom hrest
          have hshift : (fun j => read (j + (i + 1))) = fun j => read (j + 1 + i) := by
            funext j
            rw [Nat.add_right_comm, Nat.add_assoc]
          rw [hshift] at hr
          refine ⟨_, .cons (by rw [hfirst, hread]) hr, ?_⟩
          dsimp only
          rw [Json.put_of_not_mem hnew, hbuild]
          cases r with
          | error e => rfl
          | ok rest => simp [Except.map]

/-- **What a row is built to**, for columns of distinct fields. -/
theorem built_build {columns : List Projected} (h : (columns.map Projected.field).Nodup) :
    Built b read columns (build b read columns) := by
  obtain ⟨r, hr, hbuild⟩ := @built_buildFrom b read columns 0 [] h
  rw [build, hbuild]
  cases r with
  | error e => exact hr
  | ok row => exact hr

end Row
end ResourceQuery
