import Mathlib.Data.List.SplitBy
import RpnCalculator.Proofs.Expression.ReleaseRule

/-!
# Chains of numerals and operators

A `Chain` is an expression in which numerals and binary operators alternate. Its links are cut into
runs: a run ends where the next operator binds more loosely than the last one. `Chain.tree` reads a
run from the right and the runs one after another from the left, and conversion lists exactly that
tree, every operator after its operands (`itemsOf_chain_text`).

The proof first reads a chain by any release rule, which leaves of its signs nothing but the numerals
that have them (`ReleaseRule.itemsOf_text`). By the rule of the calculator the operators of the
current run wait, the last on top, and they are released all together just where the run ends.
-/

namespace RpnCalculator

/-- An operator of a chain with the numeral on its right. -/
structure Link where
  operator : Operator
  operand : Numeral

/-- A numeral, and the operators and numerals that follow it in turn. -/
structure Chain where
  first : Numeral
  links : List Link

/-- An expression as a tree. -/
inductive Tree where
  | leaf (operand : Numeral)
  | node (o : Operator) (left right : Tree)

namespace Link

def text (link : Link) : Text := link.operator.symbol :: link.operand.text

/-- Whether the operator of a link binds no more tightly than the operator of the next link. -/
def ascends (link next : Link) : Bool := link.operator.precedence ≤ next.operator.precedence

end Link

namespace Tree

/-- The tree of a first operand and the links of one run, which are nested to the right. -/
def nest (t : Tree) : List Link → Tree
  | [] => t
  | link :: rest => node link.operator t (nest (leaf link.operand) rest)

/-- The items of a tree, each operator after its operands. -/
def listing : Tree → List Item
  | leaf operand => [operand.item]
  | node o left right => left.listing ++ right.listing ++ [.operator o]

end Tree

namespace Chain

variable (c : Chain)

def text : Text := c.first.text ++ c.links.flatMap Link.text

/-- The links, cut into maximal runs in which the operators bind ever more tightly or equally. -/
def runs : List (List Link) := c.links.splitBy Link.ascends

def tree : Tree := c.runs.foldl Tree.nest (.leaf c.first)

end Chain

/-! A chain is one word, and with a link or more it is an expression. -/

namespace Chain

variable {c : Chain}

theorem not_isBlank_of_mem_text {d : Char} (hd : d ∈ c.text) : ¬ Text.isBlank d := by
  rcases List.mem_append.1 hd with hd | hd
  · exact c.first.not_isBlank_of_mem_text hd
  · obtain ⟨link, _, hd⟩ := List.mem_flatMap.1 hd
    rcases List.mem_cons.1 hd with rfl | hd
    · exact link.operator.not_isBlank_symbol
    · exact link.operand.not_isBlank_of_mem_text hd

theorem words_text : Text.words c.text = [c.text] := by
  refine Text.words_eq_singleton ?_ fun d => not_isBlank_of_mem_text
  exact List.append_ne_nil_of_left_ne_nil c.first.text_ne_nil _

theorem kind_text (hlinks : c.links ≠ []) (comments : Bool) :
    Kind.ofWord comments c.text = .expression := by
  obtain ⟨link, links, heq⟩ := List.exists_cons_of_ne_nil hlinks
  have htext : c.text = c.first.text ++
      (link.operator.symbol :: (link.operand.text ++ links.flatMap Link.text)) := by
    rw [text, heq, List.flatMap_cons, Link.text, List.cons_append]
  have hfirst := List.length_pos_iff.2 c.first.text_ne_nil
  refine Kind.ofWord_eq_expression ?_ ?_ comments
  · rw [Text.isDecimal_iff, htext, Numeral.dropMinus_text_append]
    rintro ⟨_, hdigits⟩
    exact link.operator.not_isDigit_symbol (hdigits _ (by simp))
  · rw [htext, List.length_append, List.length_cons]
    omega

/-- A chain with a link or more is one lexeme. -/
theorem lexemes_text (hlinks : c.links ≠ []) (comments : Bool) :
    lexemes comments c.text = [⟨.expression, c.text⟩] := by
  rw [lexemes, words_text, List.map_singleton, Lexeme.ofWord, kind_text hlinks]

end Chain

/-! The listing of a tree, run by run. -/

namespace Link

/-- The items that a run adds to those of its first operand: its numerals in order, then its
operators from the last to the first. -/
def itemsOfRun (run : List Link) : List Item :=
  run.map (·.operand.item) ++ (run.map fun link => Item.operator link.operator).reverse

theorem itemsOfRun_cons (link : Link) (rest : List Link) :
    itemsOfRun (link :: rest) =
      link.operand.item :: (itemsOfRun rest ++ [.operator link.operator]) := by
  simp [itemsOfRun]

end Link

namespace Tree

theorem listing_nest (t : Tree) (run : List Link) :
    (t.nest run).listing = t.listing ++ Link.itemsOfRun run := by
  induction run generalizing t with
  | nil => simp [nest, Link.itemsOfRun]
  | cons link rest ih =>
      rw [nest, listing, ih, listing, Link.itemsOfRun_cons]
      simp

theorem listing_foldl_nest (t : Tree) (runs : List (List Link)) :
    (runs.foldl nest t).listing = t.listing ++ runs.flatMap Link.itemsOfRun := by
  induction runs generalizing t with
  | nil => simp
  | cons run runs ih =>
      rw [List.foldl_cons, ih, listing_nest, List.flatMap_cons, List.append_assoc]

end Tree

/-! The pieces of a chain. -/

/-- The pieces of a link. -/
def Link.pieces (link : Link) : List Piece :=
  .symbol link.operator.symbol :: link.operand.pieces

theorem pieces_numeral_append_links (a : Numeral) (links : List Link) :
    pieces (a.text ++ links.flatMap Link.text) = a.pieces ++ links.flatMap Link.pieces := by
  induction links generalizing a with
  | nil => simp [pieces_numeral_text]
  | cons link links ih =>
      have hsymbol := link.operator.not_isDigit_symbol
      rw [List.flatMap_cons, List.flatMap_cons, Link.text, List.cons_append,
        pieces_append_cons hsymbol, pieces_numeral_text, ih, Link.pieces, List.cons_append]

theorem pieces_chain_text (c : Chain) :
    pieces c.text = c.first.pieces ++ c.links.flatMap Link.pieces :=
  pieces_numeral_append_links c.first c.links

/-! Reading the pieces of a chain, whatever the release rule is: every minus is told apart, and what
is left are operators that wait between numerals. -/

namespace ReleaseRule

variable (rule : ReleaseRule)

/-- The items of the links of a chain by a release rule, while `operators` wait, the one on top
first. -/
def listing : List Operator → List Link → List Item
  | operators, [] => operators.map .operator
  | operators, link :: links =>
    (rule.due link.operator operators).map .operator ++ link.operand.item ::
      listing (link.operator :: rule.kept link.operator operators) links

/-- A numeral that follows no numeral is read with its minus, if it has one, and leaves everything
that waits as it is. -/
theorem readAll_numeral_append (a : Numeral) (operators : List Operator) (previous : Option Piece)
    (hprevious : ¬ previous.any Piece.isNumeral) (rest : List Piece) :
    rule.readAll ⟨operators, false⟩ previous (a.pieces ++ rest) =
      (a.item :: (rule.readAll ⟨operators, false⟩ (some (.numeral a.digits)) rest).1,
        (rule.readAll ⟨operators, false⟩ (some (.numeral a.digits)) rest).2) := by
  unfold Numeral.pieces Numeral.item
  cases a.negative with
  | false => rfl
  | true =>
      have hminus : rule.read ⟨operators, false⟩ previous (.symbol '-')
          (some (.numeral a.digits)) = ([], ⟨.sub :: operators, true⟩) := by
        simp [read, Operator.ofSymbol?, readOperator, Pending.negateAfter, hprevious,
          Piece.isNumeral]
      simp only [if_true, List.cons_append, List.nil_append, readAll_cons, List.head?_cons, hminus]
      rfl

/-- An operator that follows a numeral is no sign, and it releases what is due by the rule. -/
theorem read_operator_of_numeral (o : Operator) (operators : List Operator) (digits : Text)
    (following : Option Piece) :
    rule.read ⟨operators, false⟩ (some (.numeral digits)) (.symbol o.symbol) following =
      ((rule.due o operators).map .operator, ⟨o :: rule.kept o operators, false⟩) := by
  have hnegate : (Pending.mk operators false).negateAfter o (some (.numeral digits)) = false := by
    simp [Pending.negateAfter, Piece.isNumeral]
  simp [read, readOperator, hnegate]

theorem readAll_links (operators : List Operator) (digits : Text) (links : List Link) :
    (rule.readAll ⟨operators, false⟩ (some (.numeral digits)) (links.flatMap Link.pieces)).1 ++
        (rule.readAll ⟨operators, false⟩ (some (.numeral digits))
          (links.flatMap Link.pieces)).2.released =
      rule.listing operators links := by
  induction links generalizing operators digits with
  | nil => rfl
  | cons link links ih =>
      have hsymbol : ¬ (some (Piece.symbol link.operator.symbol)).any Piece.isNumeral := by
        simp [Piece.isNumeral]
      rw [List.flatMap_cons, Link.pieces, List.cons_append, readAll_cons, read_operator_of_numeral,
        readAll_numeral_append _ _ _ _ hsymbol, listing, ← ih _ link.operand.digits]
      simp

theorem itemsOf_text (c : Chain) : rule.itemsOf c.text = c.first.item :: rule.listing [] c.links := by
  rw [itemsOf, pieces_chain_text, Pending.empty,
    rule.readAll_numeral_append c.first [] none (by simp), ← rule.readAll_links [] c.first.digits]
  rfl

end ReleaseRule

/-! The waiting operators are those of the current run, and they become due where it ends. -/

namespace Link

/-- The operators of a run as they wait, the last one on top. -/
def waiting (run : List Link) : List Operator := (run.map operator).reverse

/-- Whether a run ends before a link: its last operator binds more tightly than that of the link. -/
def ends (run : List Link) (link : Link) : Bool := run.getLast?.any fun last => ! ascends last link

theorem map_operator_waiting (run : List Link) :
    run.map (·.operand.item) ++ (waiting run).map .operator = itemsOfRun run := by
  rw [itemsOfRun, waiting, List.map_reverse, List.map_map]
  rfl

theorem waiting_append_singleton (run : List Link) (link : Link) :
    waiting (run ++ [link]) = link.operator :: waiting run := by
  simp [waiting]

theorem isDue_waiting (run : List Link) (link : Link) :
    (Pending.mk (waiting run) false).isDue link.operator = ends run link := by
  rw [Pending.isDue, waiting, List.head?_reverse, List.getLast?_map, Option.any_map, ends]
  congr 1
  funext last
  simp [ascends, ← decide_not]

theorem isChain_append_singleton {run : List Link} {link : Link}
    (hrun : run.IsChain fun link next => ascends link next) (hends : ¬ ends run link) :
    (run ++ [link]).IsChain fun link next => ascends link next := by
  refine List.isChain_append.2 ⟨hrun, List.isChain_singleton link, ?_⟩
  intro last hlast next hnext
  obtain rfl : link = next := by simpa using hnext
  simpa [ends, Option.mem_def.1 hlast] using hends

theorem ne_nil_of_ends {run : List Link} {link : Link} (hends : ends run link) : run ≠ [] := by
  rintro rfl
  simp [ends] at hends

/-- A run that ends before a link is a run of the whole list. -/
theorem splitBy_append_of_ends {run : List Link} {link : Link}
    (hrun : run.IsChain fun link next => ascends link next) (hends : ends run link)
    (links : List Link) :
    (run ++ link :: links).splitBy ascends = run :: (link :: links).splitBy ascends := by
  have hlast : ∀ last ∈ run.getLast?, ascends last link = false := by
    intro last hlast
    simpa [ends, Option.mem_def.1 hlast] using hends
  rw [List.splitBy_append_cons links hlast, List.splitBy_of_isChain (ne_nil_of_ends hends) hrun]
  rfl

end Link

namespace ReleaseRule

theorem listing_everything_of_ends {run : List Link} {link : Link} (hends : Link.ends run link)
    (links : List Link) :
    everything.listing (Link.waiting run) (link :: links) =
      (Link.waiting run).map .operator ++ link.operand.item ::
        everything.listing (Link.waiting [link]) links := by
  obtain ⟨hdue, hkept⟩ := everything_of_isDue ((Link.isDue_waiting run link).trans hends)
  rw [listing, hdue, hkept]
  rfl

/-- A link that goes on with a run waits on top of it, whatever the rule does where a run ends. -/
theorem listing_of_kept {rule : ReleaseRule} {run : List Link} {link : Link}
    (h : rule.due link.operator (Link.waiting run) = [] ∧
      rule.kept link.operator (Link.waiting run) = Link.waiting run) (links : List Link) :
    rule.listing (Link.waiting run) (link :: links) =
      link.operand.item :: rule.listing (Link.waiting (run ++ [link])) links := by
  rw [listing, h.1, h.2, Link.waiting_append_singleton]
  rfl

theorem listing_everything_of_not_ends {run : List Link} {link : Link}
    (hends : ¬ Link.ends run link) (links : List Link) :
    everything.listing (Link.waiting run) (link :: links) =
      link.operand.item :: everything.listing (Link.waiting (run ++ [link])) links :=
  listing_of_kept (everything_of_not_isDue (by rwa [Link.isDue_waiting])) links

/-- While the operators of the run so far wait, the numerals of that run and the items of the links
that are left are the items of all runs. -/
theorem itemsOfRun_append_listing (run links : List Link)
    (hrun : run.IsChain fun link next => Link.ascends link next) :
    run.map (·.operand.item) ++ everything.listing (Link.waiting run) links =
      ((run ++ links).splitBy Link.ascends).flatMap Link.itemsOfRun := by
  induction links generalizing run with
  | nil =>
      rcases eq_or_ne run [] with rfl | hne
      · rfl
      · rw [List.append_nil, List.splitBy_of_isChain hne hrun, listing, Link.map_operator_waiting]
        simp
  | cons link links ih =>
      by_cases hends : Link.ends run link
      · -- The run is complete, and the link begins the next one.
        have hnext := ih [link] (List.isChain_singleton link)
        rw [List.singleton_append] at hnext
        rw [Link.splitBy_append_of_ends hrun hends, List.flatMap_cons, ← hnext,
          listing_everything_of_ends hends, ← List.append_assoc, Link.map_operator_waiting]
        rfl
      · -- The run goes on with the link.
        have hnext := ih (run ++ [link]) (Link.isChain_append_singleton hrun hends)
        rw [← List.append_cons] at hnext
        rw [← hnext, listing_everything_of_not_ends hends]
        simp

end ReleaseRule

/-- Conversion of a chain lists its tree. -/
theorem itemsOf_chain_text (c : Chain) : itemsOf c.text = c.tree.listing := by
  have hlinks := ReleaseRule.itemsOfRun_append_listing [] c.links List.isChain_nil
  rw [← ReleaseRule.itemsOf_everything, ReleaseRule.itemsOf_text, Chain.tree,
    Tree.listing_foldl_nest]
  exact congrArg (c.first.item :: ·) hlinks

end RpnCalculator
