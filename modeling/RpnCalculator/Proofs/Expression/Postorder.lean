import RpnCalculator.Proofs.Expression.Chain

/-!
# The converted form of a chain

A chain and what it is converted to are two spellings of one tree. Read with every operator between
its operands, the tokens of `Chain.tree` are the text of the chain (`Chain.flatten_inorder_tree`);
read with every operator after them, and each followed by a space, they are the converted form
(`Chain.convert_text`). A minus sign is part of the token of its numeral, and what stands before a
minus tells whether it is one: `MinusReading` says how, and `Chain.exists_token_of_minus` that every
minus of a chain is read in this way.
-/

namespace RpnCalculator

namespace Tree

/-- The tokens of a tree, each operator between its operands. -/
def inorder : Tree → List Text
  | leaf operand => [operand.text]
  | node o left right => left.inorder ++ [o.symbol] :: right.inorder

/-- The tokens of a tree, each operator after its operands. -/
def postorder : Tree → List Text
  | leaf operand => [operand.text]
  | node o left right => left.postorder ++ right.postorder ++ [[o.symbol]]

theorem postorder_perm_inorder (t : Tree) : t.postorder.Perm t.inorder := by
  induction t with
  | leaf operand => exact .refl _
  | node o left right ihl ihr =>
      have hright : (right.postorder ++ [[o.symbol]]).Perm ([o.symbol] :: right.inorder) :=
        List.perm_append_comm.trans (ihr.cons _)
      rw [postorder, inorder, List.append_assoc]
      exact ihl.append hright

theorem map_text_listing (t : Tree) : t.listing.map Item.text = t.postorder := by
  induction t with
  | leaf operand => rw [listing, postorder, List.map_singleton, Numeral.text_item]
  | node o left right ihl ihr =>
      rw [listing, postorder, List.map_append, List.map_append, ihl, ihr]
      rfl

end Tree

namespace Link

/-- The tokens of a link. -/
def tokens (link : Link) : List Text := [[link.operator.symbol], link.operand.text]

end Link

namespace Tree

theorem inorder_nest (t : Tree) (run : List Link) :
    (t.nest run).inorder = t.inorder ++ run.flatMap Link.tokens := by
  induction run generalizing t with
  | nil => simp [nest]
  | cons link rest ih =>
      rw [nest, inorder, ih, inorder, List.flatMap_cons, Link.tokens]
      rfl

theorem inorder_foldl_nest (t : Tree) (runs : List (List Link)) :
    (runs.foldl nest t).inorder = t.inorder ++ runs.flatten.flatMap Link.tokens := by
  induction runs generalizing t with
  | nil => simp
  | cons run runs ih =>
      rw [List.foldl_cons, ih, inorder_nest, List.flatten_cons, List.flatMap_append,
        List.append_assoc]

end Tree

theorem Item.textOf_eq_flatMap_map_text (items : List Item) :
    textOf items = (items.map text).flatMap fun token => token ++ [' '] := by
  simp [textOf, List.flatMap_map]

namespace Chain

/-- The tokens of a chain as it is written. -/
def tokens (c : Chain) : List Text := c.first.text :: c.links.flatMap Link.tokens

theorem flatten_tokens (c : Chain) : c.tokens.flatten = c.text := by
  have hlink : ∀ link : Link, link.tokens.flatten = link.text := fun link => by
    simp [Link.tokens, Link.text]
  have hlinks : (c.links.flatMap Link.tokens).flatten = c.links.flatMap Link.text := by
    rw [← List.flatMap_id, List.flatMap_assoc]
    simp only [List.flatMap_id, hlink]
  rw [tokens, List.flatten_cons, hlinks, text]

theorem inorder_tree (c : Chain) : c.tree.inorder = c.tokens := by
  rw [tree, Tree.inorder_foldl_nest, runs, List.flatten_splitBy]
  rfl

theorem flatten_inorder_tree (c : Chain) : c.tree.inorder.flatten = c.text := by
  rw [inorder_tree, flatten_tokens]

theorem convert_text (c : Chain) :
    convert c.text = c.tree.postorder.flatMap fun token => token ++ [' '] := by
  rw [convert, itemsOf_chain_text, Item.textOf_eq_flatMap_map_text, Tree.map_text_listing]

end Chain

/-! What a minus is. -/

/-- A numeral ends in a digit. -/
theorem Numeral.isDigit_of_getLast?_text {a : Numeral} {d : Char}
    (h : a.text.getLast? = some d) : d.isDigit := by
  refine a.isDigit_of_mem d (List.mem_of_getLast? ?_)
  rw [text] at h
  split at h
  · rwa [List.getLast?_cons_of_ne_nil a.digits_ne_nil] at h
  · exact h

/-- How a minus that follows the text `before` begins the token `token`: at the start and after an
operator it is one token with the digits behind it, and after a digit it is a token of its own. -/
structure MinusReading (before token : Text) : Prop where
  sign : (before = [] ∨ ∃ o : Operator, before.getLast? = some o.symbol) →
    ∃ digits, digits ≠ [] ∧ (∀ d ∈ digits, d.isDigit) ∧ token = '-' :: digits
  operator : (∃ d, before.getLast? = some d ∧ d.isDigit) → token = ['-']

namespace MinusReading

theorem of_negative {a : Numeral} (h : a.negative) : MinusReading [] a.text where
  sign _ := ⟨a.digits, a.digits_ne_nil, a.isDigit_of_mem, by rw [Numeral.text, if_pos h]⟩
  operator := by simp

/-- After a numeral a minus is an operator. -/
theorem after_numeral (a : Numeral) : MinusReading a.text ['-'] where
  sign := by
    rintro (hnil | ⟨o, ho⟩)
    · exact absurd hnil a.text_ne_nil
    · exact absurd (Numeral.isDigit_of_getLast?_text ho) o.not_isDigit_symbol
  operator _ := rfl

/-- What stands before an operator does not count. -/
theorem append_symbol {before token : Text} (h : MinusReading before token) (text : Text)
    (o : Operator) : MinusReading (text ++ o.symbol :: before) token := by
  have hlast : (text ++ o.symbol :: before).getLast? = (o.symbol :: before).getLast? := by
    rw [List.getLast?_append_of_ne_nil _ (by simp)]
  cases before with
  | nil =>
      refine ⟨fun _ => h.sign (.inl rfl), ?_⟩
      rintro ⟨d, hd, hdigit⟩
      rw [hlast] at hd
      obtain rfl : o.symbol = d := by simpa using hd
      exact absurd hdigit o.not_isDigit_symbol
  | cons b before =>
      rw [List.getLast?_cons_cons] at hlast
      refine ⟨?_, fun hdigit => h.operator (by rwa [hlast] at hdigit)⟩
      rintro (hnil | hsymbol)
      · simp at hnil
      · exact h.sign (.inr (by rwa [hlast] at hsymbol))

end MinusReading

/-- In a text that begins with a numeral a minus is the sign of that numeral or stands behind it. -/
theorem Numeral.minus_of_text_append_eq {a : Numeral} {rest before after : Text}
    (h : a.text ++ rest = before ++ '-' :: after) :
    (before = [] ∧ a.negative) ∨ ∃ later, before = a.text ++ later ∧ rest = later ++ '-' :: after := by
  rcases List.append_eq_append_iff.1 h with ⟨later, hbefore, hrest⟩ | ⟨part, htext, hrest⟩
  · exact .inr ⟨later, hbefore, hrest⟩
  · cases part with
    | nil => exact .inr ⟨[], by simpa using htext.symm, by simpa using hrest.symm⟩
    | cons c part =>
        obtain rfl : '-' = c := (List.cons.inj hrest).1
        have hdigits : '-' ∉ a.digits := fun hmem => absurd (a.isDigit_of_mem _ hmem) (by decide)
        rw [text] at htext
        split at htext
        · rename_i hnegative
          cases before with
          | nil => exact .inl ⟨rfl, hnegative⟩
          | cons b before => exact absurd (by simp [(List.cons.inj htext).2]) hdigits
        · exact absurd (by simp [htext]) hdigits

namespace Chain

/-- A minus in a chain begins a token, which what stands before it tells. -/
theorem exists_token_of_minus {c : Chain} {before after : Text}
    (h : c.text = before ++ '-' :: after) :
    ∃ earlier token later, c.tokens = earlier ++ token :: later ∧ earlier.flatten = before ∧
      MinusReading before token := by
  obtain ⟨first, links⟩ := c
  induction links generalizing first before with
  | nil =>
      rcases Numeral.minus_of_text_append_eq h with ⟨rfl, hnegative⟩ | ⟨later, _, hlater⟩
      · exact ⟨[], first.text, [], rfl, rfl, .of_negative hnegative⟩
      · simp at hlater
  | cons link links ih =>
      rcases Numeral.minus_of_text_append_eq h with ⟨rfl, hnegative⟩ | ⟨behind, rfl, hbehind⟩
      · exact ⟨[], first.text, _, rfl, rfl, .of_negative hnegative⟩
      · cases behind with
        | nil =>
            -- The minus is the operator of the link.
            have hsymbol : link.operator.symbol = '-' := (List.cons.inj hbehind).1
            refine ⟨[first.text], [link.operator.symbol], link.operand.text :: _, rfl, by simp, ?_⟩
            rw [List.append_nil, hsymbol]
            exact .after_numeral first
        | cons o behind =>
            -- The minus stands in the chain behind the operator of the link.
            obtain ⟨hsymbol, hrest⟩ := List.cons.inj hbehind
            obtain ⟨earlier, token, later, htokens, rfl, hreading⟩ :=
              ih link.operand hrest
            refine ⟨first.text :: [link.operator.symbol] :: earlier, token, later, ?_, ?_, ?_⟩
            · rw [tokens, List.flatMap_cons, Link.tokens]
              exact congrArg (first.text :: [link.operator.symbol] :: ·) htokens
            · simp [hsymbol]
            · rw [← hsymbol]
              exact hreading.append_symbol first.text link.operator

/-- The converted form of a chain lists its tree, each operator after its operands and each token
followed by one space. The tokens of the tree make up the chain, and among them a minus at the start
or after an operator is one token with its numeral, and a minus after a numeral is an operator. -/
theorem convert_text_and_minusReading (c : Chain) :
    convert c.text = (c.tree.postorder.flatMap fun token => token ++ [' ']) ∧
      c.tree.postorder.Perm c.tree.inorder ∧ c.tree.inorder.flatten = c.text ∧
        ∀ before after, c.text = before ++ '-' :: after →
          ∃ earlier token later, c.tree.inorder = earlier ++ token :: later ∧
            earlier.flatten = before ∧ MinusReading before token := by
  refine ⟨c.convert_text, c.tree.postorder_perm_inorder, c.flatten_inorder_tree, ?_⟩
  intro before after h
  rw [inorder_tree]
  exact exists_token_of_minus h

end Chain

end RpnCalculator
