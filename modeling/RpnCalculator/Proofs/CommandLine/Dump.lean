import RpnCalculator.Proofs.CommandLine.Session
import RpnCalculator.Proofs.Quoted

/-!
# Dumps

A dump has a line for its header and a line for every lexeme, cut into columns by tabs. The columns
are quoted, so that no lexeme can put a tab or the end of a line into them, and different lexemes have
different columns. Hence a text is a dump (`Dumps`) of at most one list of lexemes. The program dumps
the lexemes that a machine would act upon (`Program.run_of_dump`).
-/

namespace RpnCalculator

namespace Text

variable {c : Char}

theorem cut_eq_singleton_of_notMem {text : Text} (h : c ∉ text) : cut (· == c) text = [text] :=
  cut_eq_singleton fun _ hd hdc => h (beq_iff_eq.1 hdc ▸ hd)

theorem cut_intercalate {part : Text} {parts : List Text}
    (h : ∀ other ∈ part :: parts, c ∉ other) :
    cut (· == c) ([c].intercalate (part :: parts)) = part :: parts := by
  induction parts generalizing part with
  | nil =>
      rw [List.intercalate_singleton]
      exact cut_eq_singleton_of_notMem (h part List.mem_cons_self)
  | cons next parts ih =>
      rw [List.intercalate_cons_cons, List.append_assoc, List.singleton_append,
        cut_append_cons (by simp), cut_eq_singleton_of_notMem (h part List.mem_cons_self),
        ih fun other hother => h other (List.mem_cons_of_mem _ hother), List.singleton_append]

theorem cut_flatMap_line {rows : List Text} (h : ∀ row ∈ rows, '\n' ∉ row) :
    cut (· == '\n') (rows.flatMap Event.line) = rows ++ [[]] := by
  induction rows with
  | nil => rfl
  | cons row rows ih =>
      rw [List.flatMap_cons, Event.line, List.append_assoc, List.singleton_append,
        cut_append_cons rfl, cut_eq_singleton_of_notMem (h row List.mem_cons_self),
        ih fun other hother => h other (List.mem_cons_of_mem _ hother)]
      rfl

end Text

/-- The kinds have different names. -/
theorem Kind.name_injective {k l : Kind} (h : k.name = l.name) : k = l := by
  have hfind (k : Kind) : byUrgency.find? (·.name == k.name) = some k := by cases k <;> rfl
  exact Option.some.inj (by rw [← hfind k, h, hfind l])

namespace Lexeme

/-- The columns of a lexeme: the name of its kind, its quoted text, and for an expression the quoted
text that it is converted to. -/
def columns (x : Lexeme) : List Text :=
  x.kind.name :: Text.quoted x.text ::
    if x.kind = .expression then [Text.quoted (convert x.text)] else []

theorem columns_injective {x y : Lexeme} (h : x.columns = y.columns) : x = y := by
  obtain ⟨hname, htail⟩ := List.cons.inj h
  have hkind := Kind.name_injective hname
  have htext := Text.quoted_injective (List.cons.inj htail).1
  cases x
  cases y
  exact congrArg₂ mk hkind htext

theorem isPrintable_of_mem_columns {x : Lexeme} {column : Text} (hcolumn : column ∈ x.columns)
    {c : Char} (hc : c ∈ column) : Text.isPrintable c := by
  rcases List.mem_cons.1 hcolumn with rfl | hcolumn
  · have hname : x.kind.name.all Text.isGraphic := by cases x.kind <;> decide
    exact Text.isPrintable_of_all hname hc
  · have hquoted : ∃ text, column = Text.quoted text := by
      rcases List.mem_cons.1 hcolumn with rfl | hcolumn
      · exact ⟨x.text, rfl⟩
      · split at hcolumn
        · exact ⟨convert x.text, List.mem_singleton.1 hcolumn⟩
        · cases hcolumn
    obtain ⟨text, rfl⟩ := hquoted
    exact Text.isPrintable_of_mem_quoted hc

/-- The names of the columns. -/
def columnNames : List Text := ["<kind>".toList, "<repr(lexeme)>".toList, "[postfix]".toList]

theorem isPrintable_of_mem_columnNames {column : Text} (hcolumn : column ∈ columnNames) {c : Char}
    (hc : c ∈ column) : Text.isPrintable c := by
  have hnames : columnNames.all (·.all Text.isGraphic) := by decide
  exact Text.isPrintable_of_all (List.all_eq_true.1 hnames column hcolumn) hc

end Lexeme

/-! Tables. -/

namespace Table

/-- The text of a table: a line for each row, with tabs between its columns. -/
def text (table : List (List Text)) : Text :=
  (table.map ['\t'].intercalate).flatMap Event.line

/-- Whether every row of a table has a column, and all characters of all columns are printable. -/
def Printable (table : List (List Text)) : Prop :=
  ∀ columns ∈ table, columns ≠ [] ∧ ∀ column ∈ columns, ∀ c ∈ column, Text.isPrintable c

theorem mem_intercalate {c d : Char} {columns : List Text} (h : c ∈ [d].intercalate columns) :
    c = d ∨ ∃ column ∈ columns, c ∈ column := by
  induction columns with
  | nil => simp at h
  | cons column columns ih =>
      cases columns with
      | nil => exact .inr ⟨column, List.mem_cons_self, by simpa using h⟩
      | cons next columns =>
          rw [List.intercalate_cons_cons, List.append_assoc, List.mem_append, List.mem_append,
            List.mem_singleton] at h
          rcases h with h | rfl | h
          · exact .inr ⟨column, List.mem_cons_self, h⟩
          · exact .inl rfl
          · exact (ih h).imp_right fun ⟨other, hother, hc⟩ =>
              ⟨other, List.mem_cons_of_mem _ hother, hc⟩

variable {table : List (List Text)}

/-- The only characters of a table that are not printable part its columns and its rows. -/
theorem isPrintable_of_mem_text (h : Printable table) {c : Char} (hc : c ∈ text table) :
    c = '\t' ∨ c = '\n' ∨ Text.isPrintable c := by
  obtain ⟨row, hrow, hc⟩ := List.mem_flatMap.1 hc
  obtain ⟨columns, hcolumns, rfl⟩ := List.mem_map.1 hrow
  rcases List.mem_append.1 hc with hc | hc
  · rcases mem_intercalate hc with rfl | ⟨column, hcolumn, hc⟩
    · exact .inl rfl
    · exact .inr (.inr ((h columns hcolumns).2 column hcolumn c hc))
  · exact .inr (.inl (List.mem_singleton.1 hc))

/-- A table can be cut into its rows, and the rows into their columns. -/
theorem map_cut_cut_text (h : Printable table) :
    (Text.cut (· == '\n') (text table)).map (Text.cut (· == '\t')) = table ++ [[[]]] := by
  have htab : Text.isPrintable '\t' = false := by decide +kernel
  have hfeed : Text.isPrintable '\n' = false := by decide +kernel
  have hrows : ∀ row ∈ table.map ['\t'].intercalate, '\n' ∉ row := by
    intro row hrow hmem
    obtain ⟨columns, hcolumns, rfl⟩ := List.mem_map.1 hrow
    rcases mem_intercalate hmem with hne | ⟨column, hcolumn, hc⟩
    · exact absurd hne (by decide)
    · exact Bool.false_ne_true (hfeed ▸ (h columns hcolumns).2 column hcolumn _ hc)
  have hcolumns : ∀ columns ∈ table,
      Text.cut (· == '\t') (['\t'].intercalate columns) = columns := by
    intro columns hcolumns
    obtain ⟨hne, hprintable⟩ := h columns hcolumns
    obtain ⟨part, parts, rfl⟩ := List.exists_cons_of_ne_nil hne
    exact Text.cut_intercalate fun column hcolumn hc =>
      Bool.false_ne_true (htab ▸ hprintable column hcolumn _ hc)
  rw [text, Text.cut_flatMap_line hrows, List.map_append, List.map_map]
  exact congrArg (· ++ [[[]]]) ((List.map_congr_left hcolumns).trans (List.map_id table))

end Table

/-! Dumps. -/

/-- The rows of a table of lexemes: the names of the columns, and then a row for each lexeme, in
order. -/
def Lexeme.table (xs : List Lexeme) : List (List Text) := columnNames :: xs.map columns

theorem Lexeme.printable_table (xs : List Lexeme) : Table.Printable (table xs) := by
  intro columns hcolumns
  rcases List.mem_cons.1 hcolumns with rfl | hcolumns
  · exact ⟨List.cons_ne_nil _ _, fun _ hcolumn _ => isPrintable_of_mem_columnNames hcolumn⟩
  · obtain ⟨x, -, rfl⟩ := List.mem_map.1 hcolumns
    exact ⟨List.cons_ne_nil _ _, fun _ hcolumn _ => isPrintable_of_mem_columns hcolumn⟩

/-- Whether a text is a dump of some lexemes: cut into lines and these into columns, it is the table
of these lexemes, with nothing behind the end of the last line, and what parts lines and columns are
the only characters that cannot be seen. -/
structure Dumps (text : Text) (xs : List Lexeme) : Prop where
  table : (Text.cut (· == '\n') text).map (Text.cut (· == '\t')) = Lexeme.table xs ++ [[[]]]
  printable : ∀ c ∈ text, c = '\t' ∨ c = '\n' ∨ Text.isPrintable c

/-- A text is a dump of no more than one list of lexemes. -/
theorem Dumps.unique {text : Text} {xs ys : List Lexeme} (hx : Dumps text xs) (hy : Dumps text ys) :
    xs = ys := by
  have htable := List.append_cancel_right (hx.table.symm.trans hy.table)
  exact (List.map_inj_right fun _ _ => Lexeme.columns_injective).1 (List.cons.inj htable).2

namespace Session

/-- What is printed when lexemes are dumped. -/
def dumpText (xs : List Lexeme) : Text := dump.opening.out ++ xs.flatMap dumpLine

theorem dumpLine_eq (x : Lexeme) :
    dumpLine x = Event.line (['\t'].intercalate x.columns) := by
  rw [dumpLine, Lexeme.columns]
  split <;> simp

theorem dumpText_eq (xs : List Lexeme) : dumpText xs = Table.text (Lexeme.table xs) := by
  have hopening : dump.opening.out = Event.line (['\t'].intercalate Lexeme.columnNames) := by
    decide
  have hlines : dumpLine = fun x => Event.line (['\t'].intercalate x.columns) :=
    funext dumpLine_eq
  rw [dumpText, hopening, hlines, Table.text, Lexeme.table, List.map_cons, List.flatMap_cons,
    List.map_map, List.flatMap_map]
  rfl

theorem dumps_dumpText (xs : List Lexeme) : Dumps (dumpText xs) xs := by
  have hprintable := Lexeme.printable_table xs
  rw [dumpText_eq]
  exact ⟨Table.map_cut_cut_text hprintable, fun _ => Table.isPrintable_of_mem_text hprintable⟩

/-- Different lexemes have different dumps. -/
theorem dumpText_injective : Function.Injective dumpText :=
  fun xs ys h => (dumps_dumpText xs).unique (h ▸ dumps_dumpText ys)

end Session

namespace Program

variable {arguments : List Text} {console : Console} {request : Request}

/-- A session that dumps is begun with the names of the columns. -/
theorem run_eq_of_readAll_dump (hrequest : Request.ofArguments? arguments = .ok request)
    (htask : request.task = .dump) {xs : List Lexeme} {status : Option Nat}
    (h : Session.dump.readAll (linesOf console (request.sourceAt console)) =
      (⟨xs.flatMap Session.dumpLine, []⟩, status)) :
    run arguments console =
      ⟨status.getD (lastStatus console (request.sourceAt console)),
        promptOf (request.sourceAt console), ⟨Session.dumpText xs, []⟩⟩ := by
  have hsession : request.session? = some .dump := by
    rw [Request.session?, htask]
  rw [run_eq_answer hrequest, answer_eq_converse hsession, converse, h]
  rfl

/-- What the program does when it dumps. If no line is too long, it dumps the lexemes of all lines;
otherwise it dumps those of the lines before the first one that is, and the status tells. These are the
lexemes that a machine acts upon when it runs the same lines. The dump has a line for each of them, in
order, and no other list of lexemes has the same dump. The last column of an expression quotes what a
machine runs for it. -/
theorem run_of_dump (hrequest : Request.ofArguments? arguments = .ok request)
    (htask : request.task = .dump) :
    ((∀ line ∈ request.lines console, line.length ≤ 128) →
        run arguments console =
          ⟨if (promptOf (request.sourceAt console)).isSome ∧ console.interrupted then 1 else 0,
            promptOf (request.sourceAt console),
            ⟨Session.dumpText ((request.lines console).flatMap (lexemes true)), []⟩⟩) ∧
      (∀ before line after, request.lines console = before ++ line :: after →
        (∀ earlier ∈ before, earlier.length ≤ 128) → 128 < line.length →
          run arguments console =
            ⟨139, promptOf (request.sourceAt console),
              ⟨Session.dumpText (before.flatMap (lexemes true)), []⟩⟩) ∧
        (∀ xs, Dumps (Session.dumpText xs) xs) ∧
          Function.Injective Session.dumpText ∧
            (∀ (m : Machine) (lines : List Text),
              m.processLines true lines = m.run (lines.flatMap (lexemes true))) ∧
              ∀ (m : Machine) (expression : Text), m.comment = false →
                m.feed ⟨.expression, expression⟩ =
                  (Run.printing m (m.conversionEvents expression)).andThen fun next =>
                    next.process (convert expression) false := by
  refine ⟨?_, ?_, Session.dumps_dumpText, Session.dumpText_injective, ?_,
    fun m expression hcomment => Machine.feed_expression_eq_andThen hcomment expression⟩
  · intro hlength
    have hread := Session.readAll_dump_append hlength []
    rw [List.append_nil, Session.readAll_nil, Printed.append_empty] at hread
    rw [run_eq_of_readAll_dump hrequest htask hread, Option.getD_none, lastStatus_eq]
    rfl
  · intro before line after hlines hbefore hline
    obtain ⟨raws, others, hraws, rfl, hothers⟩ := List.map_eq_append_iff.1 hlines
    obtain ⟨raw, rest, rfl, rfl, rfl⟩ := List.map_eq_cons_iff.1 hothers
    have hread := Session.readAll_dump_append hbefore (raw :: rest)
    have hlong := Session.read_of_too_long .dump hline
    rw [← hraws, Session.readAll_cons_of_error (congrArg Reaction.next hlong), hlong,
      Printed.append_empty] at hread
    exact run_eq_of_readAll_dump hrequest htask hread
  · intro m lines
    rw [Machine.processLines_eq_run, List.map_flatMap]
    rfl

/-- Four lines, of which the third is too long. The second has both quotation marks in it, and a
character that cannot be seen. -/
def dumpingArguments : List Text :=
  ["-D".toList, "-e".toList, "1+2 080\r\n".toList, "#\t'\"\u200b".toList, List.replicate 129 '1',
    "d".toList]

theorem run_dumpingArguments :
    Request.ofArguments? dumpingArguments =
        .ok { task := .dump, expressions := some (dumpingArguments.drop 2) } ∧
      (∀ earlier ∈ ["1+2 080".toList, "#\t'\"\u200b".toList], earlier.length ≤ 128) ∧
        128 < (List.replicate 129 '1').length ∧
          run dumpingArguments {} =
            ⟨139, none,
              ⟨("<kind>\t<repr(lexeme)>\t[postfix]\ninfix\t'1+2'\t'1 2 + '\nmalformed\t'080'\n" ++
                "comment\t'#'\ninfix\t'\\'\"\\u200b'\t'\\' \" \\u200b '\n").toList, []⟩⟩ := by
  have hrequest : Request.ofArguments? dumpingArguments =
      .ok { task := .dump, expressions := some (dumpingArguments.drop 2) } := by
    decide +kernel
  have hbefore : ∀ earlier ∈ ["1+2 080".toList, "#\t'\"\u200b".toList], earlier.length ≤ 128 := by
    decide
  have hline : 128 < (List.replicate 129 '1').length := by rw [List.length_replicate]; decide
  obtain ⟨-, hlong, -⟩ := @run_of_dump dumpingArguments {} _ hrequest rfl
  refine ⟨hrequest, hbefore, hline, ?_⟩
  rw [hlong _ _ ["d".toList] (by decide +kernel) hbefore hline]
  decide +kernel

end Program

end RpnCalculator
