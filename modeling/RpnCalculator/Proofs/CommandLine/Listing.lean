import RpnCalculator.Proofs.CommandLine.Source
import RpnCalculator.Proofs.Machine.Comment

/-!
# Listings read back

The listing of a stack has a line for every value, the lowest first, and the line is the decimal form
of the value. A decimal form is a decimal numeral and never an octal or a malformed one, and the values
on a stack are words, so a machine that reads a listing puts the same values on its stack again
(`run_decimals`). It makes no difference whether the listing is one line, or read line by line, or
the beginning of the standard input of the program.
-/

namespace RpnCalculator

namespace Text

theorem decimal_ne_nil (n : Int) : decimal n ≠ [] := by
  rw [← Numeral.text_ofInt]
  exact Numeral.text_ne_nil _

theorem not_isBlank_of_mem_decimal {n : Int} {c : Char} (h : c ∈ decimal n) : ¬ isBlank c := by
  rw [← Numeral.text_ofInt] at h
  exact Numeral.not_isBlank_of_mem_text _ h

theorem not_isLineEnd_of_mem_decimal {n : Int} {c : Char} (h : c ∈ decimal n) :
    ¬ Input.isLineEnd c := by
  rcases eq_minus_or_isDigit_of_mem_decimal h with rfl | hdigit
  · decide
  · have hreturn : c ≠ '\r' := ne_of_isDigit hdigit (by decide)
    have hfeed : c ≠ '\n' := ne_of_isDigit hdigit (by decide)
    simp [Input.isLineEnd, hreturn, hfeed]

theorem toNat_lt_of_mem_decimal {n : Int} {c : Char} (h : c ∈ decimal n) : c.toNat < 128 := by
  rcases eq_minus_or_isDigit_of_mem_decimal h with rfl | hdigit
  · decide
  · have hlt := lt_ten_of_isDigit hdigit
    have hzero : '0'.toNat = 48 := rfl
    omega

/-- The decimal form of a word has at most ten digits and a sign. -/
theorem length_decimal_le {n : Int} (h : Word.Fits n) : (decimal n).length ≤ 11 := by
  have hdigits : (Nat.toDigits 10 n.natAbs).length ≤ 10 := by
    rw [Word.fits_iff] at h
    rw [Nat.length_toDigits_le_iff (by decide) (by decide)]
    omega
  unfold decimal
  split
  · rw [List.length_cons]
    omega
  · omega

end Text

theorem Numeral.not_tooLong_ofInt {n : Int} (h : Word.Fits n) : ¬ (ofInt n).lexeme.TooLong := by
  rintro ⟨-, hlong⟩
  have hlength := Text.length_decimal_le h
  have hdigits := Text.length_dropMinus_le (Text.decimal n)
  rw [lexeme, Lexeme.text_ofWord, text_ofInt, Text.digitLimit] at hlong
  omega

/-! Listings. -/

namespace Event

theorem out_listing_cons (value : Int) (values : List Int) :
    (listing (value :: values)).out =
      Text.decimal value ++ '\n' :: (listing values).out := by
  simp [out, line]

theorem words_decimal (value : Int) : Text.words (Text.decimal value) = [Text.decimal value] :=
  Text.words_eq_singleton (Text.decimal_ne_nil value) fun _ => Text.not_isBlank_of_mem_decimal

theorem words_out_listing (values : List Int) :
    Text.words (listing values).out = values.map Text.decimal := by
  induction values with
  | nil => rfl
  | cons value values ih =>
      rw [out_listing_cons, Text.words_append_cons (by decide), words_decimal, ih]
      rfl

theorem flatMap_words_decimals (values : List Int) :
    (values.map Text.decimal).flatMap Text.words = values.map Text.decimal := by
  induction values with
  | nil => rfl
  | cons value values ih =>
      rw [List.map_cons, List.flatMap_cons, words_decimal, ih]
      rfl

/-- The end of a line makes no difference to its words. -/
theorem flatMap_words_map_line (lines : List Text) :
    (lines.map line).flatMap Text.words = lines.flatMap Text.words := by
  have hline (text : Text) : Text.words (line text) = Text.words text :=
    Text.words_append_blanks (List.forall_mem_singleton.2 rfl) text
  simp only [List.flatMap_map, hline]

theorem linesBy_out_listing_append (ends : Input.LineEnds) (values : List Int) (text : Text) :
    Input.linesBy ends ((listing values).out ++ text) =
      values.map Text.decimal ++ Input.linesBy ends text := by
  induction values with
  | nil => rfl
  | cons value values ih =>
      rw [out_listing_cons, List.append_assoc, List.cons_append,
        Input.linesBy_append ends fun c => Text.not_isLineEnd_of_mem_decimal, Input.linesBy_lineFeed,
        Input.foldr_consLine_cons, List.append_nil, ih]
      rfl

theorem toNat_lt_of_mem_out_listing {values : List Int} {c : Char}
    (h : c ∈ (listing values).out) : c.toNat < 128 := by
  obtain ⟨value, -, hc⟩ := List.mem_flatMap.1 h
  rcases List.mem_append.1 hc with hc | hc
  · exact Text.toNat_lt_of_mem_decimal hc
  · rw [List.mem_singleton.1 hc]
    decide

end Event

namespace Input

/-- The bytes of an ASCII text. -/
def encode (text : Text) : List UInt8 := text.map fun c => c.toNat.toUInt8

theorem decodeByte_toUInt8 {c : Char} (h : c.toNat < 128) : decodeByte c.toNat.toUInt8 = c := by
  have hbyte : c.toNat.toUInt8.toNat = c.toNat := by
    rw [Nat.toUInt8_eq, UInt8.toNat_ofNat', Nat.mod_eq_of_lt (by omega)]
  have hlt : c.toNat.toUInt8 < 0x80 := by
    rw [UInt8.lt_iff_toNat_lt, hbyte]
    exact h
  rw [decodeByte, if_pos hlt, hbyte, Char.ofNat_toNat]

theorem decode_encode_append {text : Text} (h : ∀ c ∈ text, c.toNat < 128) (bytes : List UInt8) :
    decode (encode text ++ bytes) = text ++ decode bytes := by
  have htext : (encode text).map decodeByte = text := by
    rw [encode, List.map_map]
    exact (List.map_congr_left fun c hc => decodeByte_toUInt8 (h c hc)).trans (List.map_id text)
  rw [decode, List.map_append, htext]
  rfl

end Input

/-! Reading them. -/

namespace Machine

variable {m : Machine} {values : List Int}

/-- The decimal form of a word puts that word on the stack. -/
theorem feed_decimal (hcomment : m.comment = false) (hroom : m.stack.size < Stack.capacity)
    {value : Int} (hvalue : Word.Fits value) (comments : Bool) :
    m.feed (.ofWord comments (Text.decimal value)) =
      .idle (m.withValues (value :: m.stack.values)) := by
  rw [feed, ← Numeral.text_ofInt, Numeral.ofWord_text, feedWith_numeral hcomment
    (Numeral.kind_ofInt value) (Numeral.not_tooLong_ofInt hvalue) hroom, Numeral.value_ofInt hvalue]

/-- The decimal forms of words put these words on the stack, as long as there is room for them. -/
theorem run_decimals (hcomment : m.comment = false)
    (hroom : m.stack.values.length + values.length ≤ Stack.capacity)
    (hvalues : ∀ value ∈ values, Word.Fits value) (comments : Bool) :
    m.run ((values.map Text.decimal).map (Lexeme.ofWord comments)) =
      .idle (m.withValues (values.reverse ++ m.stack.values)) := by
  induction values generalizing m with
  | nil => rfl
  | cons value values ih =>
      rw [List.length_cons] at hroom
      have hfirst := feed_decimal hcomment (show m.stack.values.length < Stack.capacity by omega)
        (hvalues value List.mem_cons_self) comments
      rw [List.map_cons, List.map_cons, run_cons, hfirst, Run.contain_idle, Run.idle_andThen,
        ih (m := m.withValues (value :: m.stack.values)) hcomment
          (by rw [values_withValues, List.length_cons]; omega)
          fun other hother => hvalues other (List.mem_cons_of_mem _ hother)]
      rw [List.reverse_cons, List.append_assoc]
      rfl

/-- What the command for all values prints on standard output. -/
def listing (m : Machine) : Text := (m.process ['d'] true).out

theorem listing_eq (hcomment : m.comment = false) :
    m.listing = (Event.listing m.stack.toList).out := by
  have hlexemes : lexemes true ['d'] = [⟨.character, ['d']⟩] := by decide
  have hevent : m.stack.listingEvent.out = (Event.listing m.stack.toList).out := by
    rw [Stack.listingEvent]
    split
    · rename_i h
      rw [Stack.toList, h]
      rfl
    · rfl
  rw [listing, process, hlexemes, run, runWith_singleton, feedWith_character hcomment, obey,
    Run.contain_printing, Run.out, Run.printing, Event.outOf_cons, Event.outOf_nil,
    List.append_nil, hevent]

/-- A machine that reads the words of a listing takes over the stack. -/
theorem run_words_listing (hm : m.Reachable) {fresh : Machine} (hstack : fresh.stack = .empty)
    (hfresh : fresh.comment = false) (comments : Bool) :
    fresh.run ((m.stack.toList.map Text.decimal).map (Lexeme.ofWord comments)) =
      .idle { fresh with stack := m.stack } := by
  have hvalues : ∀ value ∈ m.stack.toList, Word.Fits value := fun value hvalue =>
    hm.valid.1.2 value (List.mem_reverse.1 hvalue)
  have hroom : fresh.stack.values.length + m.stack.toList.length ≤ Stack.capacity := by
    rw [hstack, Stack.toList, List.length_reverse]
    exact (Nat.zero_add _).trans_le hm.valid.1.1
  have htaken : fresh.withValues (m.stack.toList.reverse ++ fresh.stack.values) =
      { fresh with stack := m.stack } := by
    rw [hstack, Stack.toList, List.reverse_reverse]
    exact congrArg fresh.withValues (List.append_nil m.stack.values)
  rw [run_decimals hfresh hroom hvalues, htaken]

/-- Lines that run to the end and are not too long end no session. -/
theorem passes_of_failure_processLines {lines : List Text}
    (h : (m.processLines true lines).failure = none)
    (hlength : ∀ line ∈ lines, line.length ≤ 128) : m.Passes lines := by
  induction lines generalizing m with
  | nil => trivial
  | cons line rest ih =>
      rw [processLines_cons] at h
      obtain ⟨hfirst, hrest⟩ := Run.failure_andThen_eq_none h
      refine ⟨?_, ih hrest fun other hother => hlength other (List.mem_cons_of_mem _ hother)⟩
      rintro (hlong | hfault)
      · exact Nat.not_lt.2 (hlength line List.mem_cons_self) hlong
      · rw [hfirst] at hfault
        cases hfault

end Machine

namespace Program

variable {m : Machine}

theorem linesOf_listing (hcomment : m.comment = false) (console : Console) (rest : List UInt8) :
    linesOf { console with input := Input.encode m.listing ++ rest } .input =
      m.stack.toList.map Text.decimal ++ linesOf { console with input := rest } .input := by
  have hdecode : Input.decode (Input.encode m.listing ++ rest) =
      (Event.listing m.stack.toList).out ++ Input.decode rest := by
    rw [Machine.listing_eq hcomment]
    exact Input.decode_encode_append (fun c => Event.toNat_lt_of_mem_out_listing) rest
  rw [linesOf, linesOf, hdecode, Event.linesBy_out_listing_append]

/-- A session whose input begins with the listing of a stack goes on with that stack on its machine. -/
theorem converse_listing (hm : m.Reachable) (hcomment : m.comment = false) {fresh : Machine}
    (hvalid : fresh.Valid) (hstack : fresh.stack = .empty) (hfresh : fresh.comment = false)
    (console : Console) (rest : List UInt8) :
    converse (.execute fresh) { console with input := Input.encode m.listing ++ rest } .input =
      converse (.execute { fresh with stack := m.stack }) { console with input := rest } .input := by
  have hrun : fresh.processLines true (m.stack.toList.map Text.decimal) =
      .idle { fresh with stack := m.stack } := by
    rw [Machine.processLines_eq_run, Event.flatMap_words_decimals]
    exact Machine.run_words_listing hm hstack hfresh true
  have hstrip : (m.stack.toList.map Text.decimal).map Input.stripEnd =
      m.stack.toList.map Text.decimal := by
    rw [List.map_map]
    exact List.map_congr_left fun value _ =>
      Input.stripEnd_of_not_isLineEnd fun _ => Text.not_isLineEnd_of_mem_decimal
  have hpasses : fresh.Passes ((m.stack.toList.map Text.decimal).map Input.stripEnd) := by
    rw [hstrip]
    refine Machine.passes_of_failure_processLines (congrArg Run.failure hrun) fun line hline => ?_
    obtain ⟨value, hvalue, rfl⟩ := List.mem_map.1 hline
    have hlength := Text.length_decimal_le (hm.valid.1.2 value (List.mem_reverse.1 hvalue))
    omega
  have hread := Session.readAll_append_of_passes hvalid hpasses
    (linesOf { console with input := rest } .input)
  rw [hstrip, hrun, Run.printed_idle, Printed.empty_append, ← linesOf_listing hcomment] at hread
  rw [converse_execute hread]
  rfl

end Program

namespace Machine

variable {m : Machine}

/-- A fresh machine that reads the listing of a stack has that stack in the end, with nothing printed
and nothing else changed, whether the listing is one line or is read line by line, with the ends of the
lines or without. The program, too, goes on with that stack when the listing has come from standard
input, and if nothing else comes it ends without a word. -/
theorem process_listing (hm : m.Reachable) (hcomment : m.comment = false) (seed : Int)
    (verbose comments : Bool) :
    (ofSeed seed verbose).process m.listing comments =
        .idle { ofSeed seed verbose with stack := m.stack } ∧
      (ofSeed seed verbose).processLines comments (Input.lines m.listing) =
          .idle { ofSeed seed verbose with stack := m.stack } ∧
        (ofSeed seed verbose).processLines comments ((Input.lines m.listing).map Event.line) =
            .idle { ofSeed seed verbose with stack := m.stack } ∧
          ∀ arguments request (console : Console), Request.ofArguments? arguments = .ok request →
            request.task = .execute → request.sourceAt console = .input →
              (∀ rest, Program.run arguments
                    { console with input := Input.encode m.listing ++ rest } =
                  Program.converse (.execute { request.machine with stack := m.stack })
                    { console with input := rest } .input) ∧
                Program.run arguments { console with input := Input.encode m.listing } =
                  ⟨0, none, {}⟩ := by
  have hfresh : (ofSeed seed verbose).comment = false := rfl
  have hstack : (ofSeed seed verbose).stack = .empty := rfl
  have hrun := run_words_listing hm hstack hfresh comments
  have hlines : Input.lines m.listing = m.stack.toList.map Text.decimal := by
    have happend := Event.linesBy_out_listing_append .any m.stack.toList []
    rwa [Input.linesBy, List.append_nil, Input.lines_nil, List.append_nil,
      ← listing_eq hcomment] at happend
  refine ⟨?_, ?_, ?_, ?_⟩
  · rw [process, lexemes, listing_eq hcomment, Event.words_out_listing, hrun]
  · rw [processLines_eq_run, hlines, Event.flatMap_words_decimals, hrun]
  · rw [processLines_eq_run, Event.flatMap_words_map_line, hlines, Event.flatMap_words_decimals,
      hrun]
  · intro arguments request console hrequest htask hsource
    have hinput (rest : List UInt8) : Program.run arguments
          { console with input := Input.encode m.listing ++ rest } =
        Program.converse (.execute { request.machine with stack := m.stack })
          { console with input := rest } .input := by
      have hsource' : request.sourceAt { console with input := Input.encode m.listing ++ rest } =
          .input := hsource
      rw [Program.run_eq_converse hrequest htask, hsource']
      exact Program.converse_listing hm hcomment request.valid_machine rfl rfl console rest
    refine ⟨hinput, ?_⟩
    have hall := hinput []
    rw [List.append_nil, Program.converse, Program.linesOf, Input.decode, List.map_nil,
      Input.linesBy_nil] at hall
    exact hall

/-- A machine with both ends of the words on its stack, zero, and a value that was read in octal. -/
def keeper : Machine :=
  ((ofSeed 7 true).perform (.process "2147483647 1+ 9 9 - -010 d -2147483649".toList true)).machine

/-- The listing of four values, the last two of them negative. -/
theorem process_listing_keeper :
    keeper.Reachable ∧ keeper.comment = false ∧
      keeper.listing = "2147483647\n0\n-8\n-2147483648\n".toList ∧
        (ofSeed 5 false).process "2147483647\n0\n-8\n-2147483648\n".toList true =
          .idle { ofSeed 5 false with stack := ⟨[-2147483648, -8, 0, 2147483647]⟩ } ∧
          Program.run ["-v".toList]
              { input := Input.encode "2147483647\n0\n-8\n-2147483648\n".toList } =
            ⟨0, none, {}⟩ := by
  have hreachable : keeper.Reachable := (Reachable.ofSeed 7 true).perform _
  have hcomment : keeper.comment = false := by decide +kernel
  have hlisting : keeper.listing = "2147483647\n0\n-8\n-2147483648\n".toList := by
    decide +kernel
  have hstack : keeper.stack = ⟨[-2147483648, -8, 0, 2147483647]⟩ := by decide +kernel
  have hrequest : Request.ofArguments? ["-v".toList] = .ok { verbose := true } := by
    decide +kernel
  obtain ⟨hprocess, -, -, hinput⟩ := process_listing hreachable hcomment 5 false true
  rw [hlisting, hstack] at hprocess
  have hrun := (hinput ["-v".toList] _ {} hrequest rfl rfl).2
  rw [hlisting] at hrun
  exact ⟨hreachable, hcomment, hlisting, hprocess, hrun⟩

end Machine

end RpnCalculator
