import RpnCalculator.Proofs.Expression.Chain

/-!
# Where the calculator converts as usual

The usual conversion releases only those waiting operators that bind more tightly than the one that
comes in. While both conversions of a chain agree, the operators of the current run wait in both of
them, the loosest at the bottom. Where the run ends, the calculator releases the whole run, and so
does the usual conversion if even the first operator of the run binds more tightly than the one that
comes in. If not, that one is kept, and the next numeral is written before it on one side and after
it on the other (`ReleaseRule.textOf_listing_eq_iff`).
-/

namespace RpnCalculator

namespace Link

/-- Whether the first operator of a run binds more loosely than the first one of the run before. -/
def StartsLooser (run next : List Link) : Prop :=
  ∀ first ∈ run.head?, ∀ later ∈ next.head?,
    later.operator.precedence < first.operator.precedence

/-- The first run begins with the first link. -/
theorem exists_splitBy_cons (link : Link) (links : List Link) :
    ∃ rest runs, (link :: links).splitBy ascends = (link :: rest) :: runs := by
  have hne : (link :: links).splitBy ascends ≠ [] := List.splitBy_ne_nil.2 (List.cons_ne_nil _ _)
  obtain ⟨run, runs, hruns⟩ := List.exists_cons_of_ne_nil hne
  have hrun : run ≠ [] := List.ne_nil_of_mem_splitBy (hruns ▸ List.mem_cons_self)
  obtain ⟨first, rest, rfl⟩ := List.exists_cons_of_ne_nil hrun
  have hhead := List.head_head_splitBy ascends (List.cons_ne_nil link links)
  simp only [hruns, List.head_cons] at hhead
  exact ⟨rest, runs, by rw [hruns, hhead]⟩

/-- No operator of a run binds more loosely than its first. -/
theorem precedence_le_of_mem {first link : Link} {rest : List Link}
    (hrun : (first :: rest).IsChain fun link next => ascends link next)
    (hlink : link ∈ first :: rest) :
    first.operator.precedence ≤ link.operator.precedence := by
  have hsorted : ((first :: rest).map (·.operator.precedence)).IsChain (· ≤ ·) :=
    (List.isChain_map _).2 (hrun.imp fun _ _ h => of_decide_eq_true h)
  have hpairwise := List.isChain_iff_pairwise.1 hsorted
  rw [List.map_cons, List.pairwise_cons] at hpairwise
  rcases List.mem_cons.1 hlink with rfl | hlink
  · exact Nat.le_refl _
  · exact hpairwise.1 _ (List.mem_map_of_mem hlink)

end Link

/-- A numeral is written otherwise than an operator. -/
theorem Item.textOf_item_cons_ne (a : Numeral) (o : Operator) (items later : List Item) :
    textOf (a.item :: items) ≠ textOf (.operator o :: later) := by
  intro h
  rw [textOf_cons, textOf_cons, Numeral.text_item, text] at h
  obtain ⟨d, digits, hdigits⟩ := List.exists_cons_of_ne_nil a.digits_ne_nil
  have hdigit : d.isDigit := a.isDigit_of_mem d (hdigits ▸ List.mem_cons_self)
  rw [Numeral.text, hdigits] at h
  split at h
  · -- Behind the minus stands a digit on the left and a separator on the right.
    have hspace : d = ' ' := (List.cons.inj (List.cons.inj h).2).1
    exact absurd (hspace ▸ hdigit) (by decide)
  · have hsymbol : d = o.symbol := (List.cons.inj h).1
    exact o.not_isDigit_symbol (hsymbol ▸ hdigit)

namespace ReleaseRule

theorem listing_tighter_of_not_ends {run : List Link} {link : Link} (hends : ¬ Link.ends run link)
    (links : List Link) :
    tighter.listing (Link.waiting run) (link :: links) =
      link.operand.item :: tighter.listing (Link.waiting (run ++ [link])) links :=
  listing_of_kept (tighter_of_not_isDue (by rwa [Link.isDue_waiting])) links

/-- A run is released as a whole if its first operator binds more tightly than the one that comes
in. -/
theorem listing_tighter_of_lt {first : Link} {rest : List Link} {link : Link}
    (hrun : (first :: rest).IsChain fun link next => Link.ascends link next)
    (hlt : link.operator.precedence < first.operator.precedence) (links : List Link) :
    tighter.listing (Link.waiting (first :: rest)) (link :: links) =
      (Link.waiting (first :: rest)).map .operator ++ link.operand.item ::
        tighter.listing (Link.waiting [link]) links := by
  have htighter : ∀ o ∈ Link.waiting (first :: rest),
      link.operator.precedence < o.precedence := by
    intro o ho
    obtain ⟨other, hother, rfl⟩ := List.mem_map.1 (List.mem_reverse.1 ho)
    exact Nat.lt_of_lt_of_le hlt (Link.precedence_le_of_mem hrun hother)
  obtain ⟨hdue, hkept⟩ := tighter_of_forall htighter
  rw [listing, hdue, hkept]
  rfl

/-- Else the first operator of the run is kept, and the numeral that follows is written in the place
of an operator. -/
theorem textOf_listing_tighter_ne {first link : Link}
    (hle : first.operator.precedence ≤ link.operator.precedence) (rest links : List Link)
    (later : List Item) :
    Item.textOf (tighter.listing (Link.waiting (first :: rest)) (link :: links)) ≠
      Item.textOf ((Link.waiting (first :: rest)).map .operator ++ later) := by
  have hfirst : first.operator ∈ Link.waiting (first :: rest) := by
    simp [Link.waiting]
  obtain ⟨o, operators, hkept⟩ := List.exists_cons_of_ne_nil (tighter_kept_ne_nil hfirst hle)
  have hwaiting : (Link.waiting (first :: rest)).map Item.operator =
      (tighter.due link.operator (Link.waiting (first :: rest))).map .operator ++
        .operator o :: operators.map .operator := by
    rw [← List.map_cons, ← hkept, ← List.map_append, tighter.due_append_kept]
  rw [listing, hwaiting, List.append_assoc, Item.textOf_append, Item.textOf_append]
  exact fun h => Item.textOf_item_cons_ne _ _ _ _ (List.append_cancel_left h)

/-- While the operators of the run so far wait on both sides, the rest of a chain is converted to the
same text if and only if every run that is left starts looser than the run before it. -/
theorem textOf_listing_eq_iff (run links : List Link)
    (hrun : run.IsChain fun link next => Link.ascends link next) :
    Item.textOf (tighter.listing (Link.waiting run) links) =
        Item.textOf (everything.listing (Link.waiting run) links) ↔
      ((run ++ links).splitBy Link.ascends).IsChain Link.StartsLooser := by
  induction links generalizing run with
  | nil =>
      rw [List.append_nil]
      rcases eq_or_ne run [] with rfl | hne
      · simp [listing]
      · rw [List.splitBy_of_isChain hne hrun]
        simp [listing]
  | cons link links ih =>
      by_cases hends : Link.ends run link
      · obtain ⟨first, rest, rfl⟩ := List.exists_cons_of_ne_nil (Link.ne_nil_of_ends hends)
        obtain ⟨next, runs, hruns⟩ := Link.exists_splitBy_cons link links
        have hnext := ih [link] (List.isChain_singleton link)
        rw [List.singleton_append, hruns] at hnext
        rw [Link.splitBy_append_of_ends hrun hends, hruns, List.isChain_cons_cons, ← hnext,
          listing_everything_of_ends hends]
        rcases Nat.lt_or_ge link.operator.precedence first.operator.precedence with hlt | hle
        · -- Both release the run.
          have hlooser : Link.StartsLooser (first :: rest) (link :: next) := by
            simpa [Link.StartsLooser] using hlt
          rw [listing_tighter_of_lt hrun hlt]
          simp [hlooser]
        · -- The numeral of the link meets the first operator that is kept.
          have hlooser : ¬ Link.StartsLooser (first :: rest) (link :: next) := by
            simpa [Link.StartsLooser] using hle
          have hne := textOf_listing_tighter_ne hle rest links
            (link.operand.item :: everything.listing (Link.waiting [link]) links)
          exact iff_of_false hne fun h => hlooser h.1
      · have hnext := ih (run ++ [link]) (Link.isChain_append_singleton hrun hends)
        rw [← List.append_cons] at hnext
        rw [← hnext, listing_tighter_of_not_ends hends, listing_everything_of_not_ends hends]
        simp

/-- The usual conversion of a chain and that of the calculator are the same text if and only if of
every two consecutive runs the later one starts with an operator that binds more loosely than the
one that the earlier one starts with. -/
theorem convert_tighter_eq_convert_iff (c : Chain) :
    tighter.convert c.text = RpnCalculator.convert c.text ↔ c.runs.IsChain Link.StartsLooser := by
  rw [← convert_everything, convert, convert, itemsOf_text, itemsOf_text, Chain.runs,
    ← List.nil_append c.links, ← textOf_listing_eq_iff [] c.links List.isChain_nil]
  simp [Link.waiting]

/-- The runs of `5-2*3+1` begin with `-` and with `+`, so the minus is kept here, where the calculator
releases it before the `1`. -/
example : tighter.convert "5-2*3+1".toList = "5 2 3 * 1 + - ".toList := by decide

end ReleaseRule

end RpnCalculator
