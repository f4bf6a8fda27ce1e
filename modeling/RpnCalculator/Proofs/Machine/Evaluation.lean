import RpnCalculator.Machine.Line
import RpnCalculator.Proofs.Expression.Chain
import RpnCalculator.Proofs.Machine.Act

/-!
# The value of a chain

The value of a chain is computed run by run: the value so far is the left operand of the first
operator of a run, and its right operand is the rest of the run, nested to the right. Every operator
keeps the word of its result, as the machine does. The machine arrives at this value when it runs
what the chain is converted to, for it runs the listing of a tree with the effect of pushing the
value of the tree (`runWith_listing`). `Tree.room` is the number of places on the stack that this
takes, for the tree of a chain one more than its longest run.
-/

namespace RpnCalculator

/-- The word that the machine keeps of the result of an operator, or why there is none. -/
def Operator.compute (o : Operator) (left right : Int) : Except Failure Int :=
  (o.apply left right).map Binary64.saturate

theorem Operator.compute_eq_ok_iff {o : Operator} {left right v : Int} :
    o.compute left right = .ok v ↔ ∃ x, o.apply left right = .ok x ∧ x.saturate = v := by
  cases h : o.apply left right <;> simp [compute, h, Except.map]

/-- The value of a left operand and the links of one run, which are nested to the right. -/
def Link.valueFrom (left : Int) : List Link → Except Failure Int
  | [] => .ok left
  | link :: rest => do
    let right ← valueFrom link.operand.value rest
    link.operator.compute left right

/-- The value of a chain: its runs act one after another on the value of the first numeral. -/
def Chain.value (c : Chain) : Except Failure Int :=
  c.runs.foldlM Link.valueFrom c.first.value

/-- All numerals of a chain. -/
def Chain.operands (c : Chain) : List Numeral := c.first :: c.links.map Link.operand

namespace Tree

/-- The value of a tree. -/
def value : Tree → Except Failure Int
  | leaf operand => .ok operand.value
  | node o left right => do
    let l ← left.value
    let r ← right.value
    o.compute l r

/-- All numerals of a tree, from left to right. -/
def operands : Tree → List Numeral
  | leaf operand => [operand]
  | node _ left right => left.operands ++ right.operands

/-- The number of places on the stack that the listing of a tree takes. -/
def room : Tree → Nat
  | leaf _ => 1
  | node _ left right => max left.room (right.room + 1)

theorem room_pos (t : Tree) : 0 < t.room := by
  cases t with
  | leaf operand => exact Nat.one_pos
  | node o left right =>
      rw [room]
      omega

theorem value_node_eq_ok_iff {o : Operator} {left right : Tree} {v : Int} :
    (node o left right).value = .ok v ↔
      ∃ l r, left.value = .ok l ∧ right.value = .ok r ∧ o.compute l r = .ok v := by
  rw [value]
  cases left.value with
  | error failure => simp [bind, Except.bind]
  | ok l => cases right.value <;> simp [bind, Except.bind]

/-! The tree of a chain. -/

theorem value_nest (t : Tree) (run : List Link) :
    (t.nest run).value = t.value >>= fun left => Link.valueFrom left run := by
  induction run generalizing t with
  | nil => cases ht : t.value <;> simp [nest, ht, Link.valueFrom, bind, Except.bind]
  | cons link rest ih =>
      rw [nest, value, ih]
      rfl

theorem value_foldl_nest (t : Tree) (runs : List (List Link)) :
    (runs.foldl nest t).value = t.value >>= fun left => runs.foldlM Link.valueFrom left := by
  induction runs generalizing t with
  | nil => cases ht : t.value <;> simp [ht, bind, Except.bind, pure, Except.pure]
  | cons run runs ih =>
      rw [List.foldl_cons, ih, value_nest]
      cases t.value <;> rfl

theorem operands_nest (t : Tree) (run : List Link) :
    (t.nest run).operands = t.operands ++ run.map Link.operand := by
  induction run generalizing t with
  | nil => simp [nest]
  | cons link rest ih =>
      rw [nest, operands, ih, operands]
      simp

theorem operands_foldl_nest (t : Tree) (runs : List (List Link)) :
    (runs.foldl nest t).operands = t.operands ++ runs.flatten.map Link.operand := by
  induction runs generalizing t with
  | nil => simp
  | cons run runs ih =>
      rw [List.foldl_cons, ih, operands_nest]
      simp

theorem room_nest_leaf (operand : Numeral) (run : List Link) :
    ((leaf operand).nest run).room = run.length + 1 := by
  induction run generalizing operand with
  | nil => rfl
  | cons link rest ih =>
      rw [nest, room, ih, room, List.length_cons]
      omega

/-- Each run takes a place for every numeral of it, on top of the one place of the value so far. -/
theorem room_foldl_nest_le {t : Tree} {runs : List (List Link)} {places : Nat}
    (ht : t.room ≤ places) (hruns : ∀ run ∈ runs, run.length + 1 ≤ places) :
    (runs.foldl nest t).room ≤ places := by
  induction runs generalizing t with
  | nil => exact ht
  | cons run runs ih =>
      have hrun := hruns run List.mem_cons_self
      have hnest : (t.nest run).room ≤ places := by
        cases run with
        | nil => exact ht
        | cons link rest =>
            rw [List.length_cons] at hrun
            rw [nest, room, room_nest_leaf]
            omega
      exact ih hnest fun other hother => hruns other (List.mem_cons_of_mem _ hother)

end Tree

namespace Chain

variable (c : Chain)

theorem runs_ne_nil (hlinks : c.links ≠ []) : c.runs ≠ [] :=
  List.splitBy_ne_nil.2 hlinks

theorem value_tree : c.tree.value = c.value := by
  rw [tree, Tree.value_foldl_nest]
  rfl

theorem operands_tree : c.tree.operands = c.operands := by
  rw [tree, Tree.operands_foldl_nest, runs, List.flatten_splitBy]
  rfl

end Chain

namespace Tree

theorem not_isBlank_of_mem_listing (t : Tree) {item : Item} (h : item ∈ t.listing) :
    item.isBlank = false := by
  induction t with
  | leaf operand =>
      obtain rfl := List.mem_singleton.1 h
      rfl
  | node o left right ihl ihr =>
      rw [listing, List.mem_append, List.mem_append] at h
      rcases h with (h | h) | h
      · exact ihl h
      · exact ihr h
      · obtain rfl := List.mem_singleton.1 h
        rfl

end Tree

namespace Machine

variable {evaluate : Machine → Text → Run}

theorem runWith_operator {m : Machine} (hm : m.comment = false) {left right : Int}
    {values : List Int} (hvalues : m.stack.values = right :: left :: values)
    (hroom : values.length < Stack.capacity) {o : Operator} {x : Binary64}
    (hx : o.apply left right = .ok x) :
    runWith evaluate m [Item.lexeme (.operator o)] = .idle (m.withValues (x.saturate :: values)) := by
  rw [runWith_singleton, Item.lexeme, Item.text, Lexeme.ofWord, Item.kind_operator,
    feedWith_operator hm, applyOperator_of_ok hvalues hroom hx, Run.contain_idle]

theorem runWith_numeral {m : Machine} (hm : m.comment = false) {a : Numeral}
    (ha : a.lexeme.kind ≠ .malformed) (hlong : ¬ a.lexeme.TooLong)
    (hroom : m.stack.size < Stack.capacity) :
    runWith evaluate m [a.item.lexeme] = .idle (m.withValues (a.value :: m.stack.values)) := by
  rw [runWith_singleton, Item.lexeme_item, feedWith_numeral hm ha hlong hroom, Run.contain_idle]

theorem runWith_numeral_of_tooLong {m : Machine} (hm : m.comment = false) {a : Numeral}
    (hlong : a.lexeme.TooLong) :
    runWith evaluate m [a.item.lexeme] = .failing m (.invalidNumeral 10 a.text) := by
  rw [runWith_singleton, Item.lexeme_item, a.feedWith_of_tooLong hm hlong]
  rfl

/-- With room on the stack the listing of a tree has the effect of pushing its value. -/
theorem runWith_listing {m : Machine} (hm : m.comment = false) {t : Tree} {v : Int}
    (hoperands : ∀ a ∈ t.operands, a.lexeme.kind ≠ .malformed)
    (hlong : ∀ a ∈ t.operands, ¬ a.lexeme.TooLong)
    (hroom : m.stack.values.length + t.room ≤ Stack.capacity) (hv : t.value = .ok v) :
    runWith evaluate m (t.listing.map Item.lexeme) =
      .idle (m.withValues (v :: m.stack.values)) := by
  induction t generalizing m v with
  | leaf operand =>
      obtain rfl : operand.value = v := Except.ok.inj hv
      exact runWith_numeral hm (hoperands operand List.mem_cons_self)
        (hlong operand List.mem_cons_self) hroom
  | node o left right ihl ihr =>
      obtain ⟨l, r, hl, hr, hcompute⟩ := Tree.value_node_eq_ok_iff.1 hv
      obtain ⟨x, hx, rfl⟩ := Operator.compute_eq_ok_iff.1 hcompute
      rw [Tree.room] at hroom
      have hpositive := left.room_pos
      have hplace : m.stack.values.length < Stack.capacity := by omega
      rw [Tree.operands, List.forall_mem_append] at hoperands hlong
      have hleft := ihl hm hoperands.1 hlong.1 (by omega) hl
      have hright := ihr (m := m.withValues (l :: m.stack.values)) hm hoperands.2 hlong.2
        (by rw [values_withValues, List.length_cons]; omega) hr
      have hoperator : runWith evaluate (m.withValues (r :: l :: m.stack.values))
          [Item.lexeme (.operator o)] = .idle (m.withValues (x.saturate :: m.stack.values)) :=
        runWith_operator (m := m.withValues (r :: l :: m.stack.values)) hm rfl hplace hx
      rw [Tree.listing, List.map_append, List.map_append, runWith_append, runWith_append, hleft,
        Run.idle_andThen, hright, Run.idle_andThen]
      exact hoperator

/-- The listing of a tree is run up to the first numeral that is too long: what was pushed so far stays
on top of the stack. -/
theorem runWith_listing_of_tooLong {m : Machine} (hm : m.comment = false) {t : Tree} {v : Int}
    (hoperands : ∀ a ∈ t.operands, a.lexeme.kind ≠ .malformed)
    (hroom : m.stack.values.length + t.room ≤ Stack.capacity) (hv : t.value = .ok v) {a : Numeral}
    (ha : t.operands.find? (fun b => b.lexeme.TooLong) = some a) :
    ∃ pushed, runWith evaluate m (t.listing.map Item.lexeme) =
      .failing (m.withValues (pushed ++ m.stack.values)) (.invalidNumeral 10 a.text) := by
  induction t generalizing m v with
  | leaf operand =>
      obtain ⟨hlong, rfl⟩ : operand.lexeme.TooLong ∧ operand = a := by
        simpa [Tree.operands] using ha
      exact ⟨[], runWith_numeral_of_tooLong hm hlong⟩
  | node o left right ihl ihr =>
      obtain ⟨l, r, hl, hr, -⟩ := Tree.value_node_eq_ok_iff.1 hv
      rw [Tree.room] at hroom
      rw [Tree.operands, List.forall_mem_append] at hoperands
      rw [Tree.operands, List.find?_append, Option.or_eq_some_iff] at ha
      rw [Tree.listing, List.map_append, List.map_append, runWith_append, runWith_append]
      rcases ha with ha | ⟨hnone, ha⟩
      · obtain ⟨pushed, hleft⟩ := ihl hm hoperands.1 (by omega) hl ha
        refine ⟨pushed, ?_⟩
        rw [hleft, Run.andThen_of_failure rfl, Run.andThen_of_failure rfl]
      · have hlong : ∀ b ∈ left.operands, ¬ b.lexeme.TooLong := by simpa using hnone
        obtain ⟨pushed, hright⟩ := ihr (m := m.withValues (l :: m.stack.values)) hm hoperands.2
          (by rw [values_withValues, List.length_cons]; omega) hr ha
        refine ⟨pushed ++ [l], ?_⟩
        rw [runWith_listing hm hoperands.1 hlong (by omega) hl, Run.idle_andThen, hright,
          Run.andThen_of_failure rfl, List.append_assoc]
        rfl

variable {m : Machine}

theorem evaluate_succ_of_not_verbose (hverbose : m.verbose = false) (depth : Nat)
    (expression : Text) :
    Machine.evaluate (depth + 1) m expression =
      runWith (Machine.evaluate depth) m (lexemes false (convert expression)) := by
  have hevents : m.conversionEvents expression = [] := by simp [conversionEvents, hverbose]
  rw [Machine.evaluate, hevents]
  exact Run.idle_andThen m _

/-- A chain of one or more operators, given as one word, has the effect of pushing its value and
prints nothing, whatever its numerals and operators are: as long as no numeral is malformed or too
long, no operator fails, and the stack has a place for the value so far and for every numeral of a
run. If there are numerals that are too long, the first of them ends the run, with nothing printed
and with what was pushed so far on top of the stack. -/
theorem process_chain (hm : m.comment = false) (hverbose : m.verbose = false) {c : Chain}
    (hlinks : c.links ≠ []) (hoperands : ∀ a ∈ c.operands, a.lexeme.kind ≠ .malformed)
    (hroom : ∀ run ∈ c.runs, m.stack.size + 1 + run.length ≤ Stack.capacity) {v : Int}
    (hv : c.value = .ok v) (comments : Bool) :
    ((∀ a ∈ c.operands, ¬ a.lexeme.TooLong) →
        m.process c.text comments = .idle { m with stack := ⟨v :: m.stack.values⟩ }) ∧
      ∀ a, c.operands.find? (fun b => b.lexeme.TooLong) = some a →
        ∃ pushed, m.process c.text comments =
          .failing { m with stack := ⟨pushed ++ m.stack.values⟩ } (.invalidNumeral 10 a.text) := by
  have hitems : lexemes false (convert c.text) = c.tree.listing.map Item.lexeme := by
    rw [lexemes_convert, itemsOf_chain_text]
    congr 1
    refine List.filter_eq_self.2 fun item hitem => ?_
    simp [c.tree.not_isBlank_of_mem_listing hitem]
  have hplaces : m.stack.size + c.tree.room ≤ Stack.capacity := by
    obtain ⟨run, runs, hruns⟩ := List.exists_cons_of_ne_nil (c.runs_ne_nil hlinks)
    have hfirst := hroom run (hruns ▸ List.mem_cons_self)
    have hle : c.tree.room ≤ Stack.capacity - m.stack.size := by
      refine Tree.room_foldl_nest_le (by rw [Tree.room]; omega) fun other hother => ?_
      have hother := hroom other hother
      omega
    omega
  have hprocess : m.process c.text comments =
      (runWith (Machine.evaluate 0) m (c.tree.listing.map Item.lexeme)).contain := by
    rw [process, c.lexemes_text hlinks, run, runWith_singleton, feedWith_expression hm, nestingLimit,
      evaluate_succ_of_not_verbose hverbose, hitems]
  have hvalue := c.value_tree.trans hv
  rw [← c.operands_tree] at hoperands ⊢
  refine ⟨fun hlong => ?_, fun a ha => ?_⟩
  · rw [hprocess, runWith_listing hm hoperands hlong hplaces hvalue]
    rfl
  · obtain ⟨pushed, hlisting⟩ := runWith_listing_of_tooLong hm hoperands hplaces hvalue ha
    refine ⟨pushed, ?_⟩
    rw [hprocess, hlisting]
    rfl

/-- The chain `7--2*010+5%3`, whose runs have two links each. -/
def twoRuns : Chain :=
  ⟨⟨false, ['7'], by simp, by simp⟩,
    [⟨.sub, ⟨true, ['2'], by simp, by simp⟩⟩,
      ⟨.mul, ⟨false, ['0', '1', '0'], by simp, by simp⟩⟩,
      ⟨.add, ⟨false, ['5'], by simp, by simp⟩⟩,
      ⟨.mod, ⟨false, ['3'], by simp, by simp⟩⟩]⟩

/-- The sum of one and a numeral that is too long. -/
def longSum : Chain := ⟨⟨false, ['1'], by simp, by simp⟩, [⟨.add, Numeral.tooManyOnes⟩]⟩

/-- There are just enough places left for the first chain. The second would leave the greatest word,
but its second numeral cannot be read. -/
theorem process_chain_twoRuns :
    twoRuns.text = "7--2*010+5%3".toList ∧
      ((ofSeed 1 false).withValues (List.replicate 20 9)).process twoRuns.text true =
        .idle ((ofSeed 1 false).withValues (25 :: List.replicate 20 9)) ∧
      longSum.value = .ok 2147483647 ∧
      ∃ pushed, (ofSeed 1 false).process longSum.text true =
        .failing { ofSeed 1 false with stack := ⟨pushed⟩ }
          (.invalidNumeral 10 Numeral.tooManyOnes.text) := by
  have hvalue : longSum.value = .ok 2147483647 := by decide +kernel
  have hfirst : longSum.operands.find? (fun b => b.lexeme.TooLong) = some Numeral.tooManyOnes := by
    change List.find? _ [_, Numeral.tooManyOnes] = _
    rw [List.find?_cons_of_neg (by decide), List.find?_cons_of_pos (by
      simpa using Numeral.tooLong_tooManyOnes)]
  obtain ⟨pushed, hlong⟩ := (process_chain (m := ofSeed 1 false) rfl rfl (by decide)
    (by decide +kernel) (by decide +kernel) hvalue true).2 Numeral.tooManyOnes hfirst
  rw [show (ofSeed 1 false).stack.values = [] from rfl, List.append_nil] at hlong
  exact ⟨by decide,
    (process_chain rfl rfl (by decide) (by decide +kernel) (by decide +kernel)
      (by decide +kernel) true).1 (by decide +kernel),
    hvalue, pushed, hlong⟩

end Machine

end RpnCalculator
