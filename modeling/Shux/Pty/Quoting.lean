/-
# Quoting

The arguments of a command are typed into a live shell, each quoted unless all of it is literal
as it is. The rules of the shell are stated on their own: a symbol the shell may take for
anything but itself makes a line more than words. By these rules a line of quoted arguments is
nothing but words, and the words are the arguments.
-/

import Shux.Lib.Words
import Shux.Pty.Command

namespace Shux.Pty

open Words

/-- The word rules of a shell. Besides the operators, the expansions and the patterns, a brace,
an exclamation mark and a tilde count as special wherever they stand, and an equals sign may not
lead a word. -/
@[reducible]
def shellRules : Rules Char where
  blank c := c = ' ' || c = '\t'
  quote := '\''
  escape := '\\'
  special c := "|&;<>()$\x60\"*?[]#\x7b\x7d!^~\n".toList.contains c
  leading c := c = '='

theorem quotes_shellRules : shellRules.Quotes := ⟨by decide, by decide, by decide⟩

/-- A character that an argument may keep outside quotes. -/
def isLiteral (c : Char) : Bool := c.isAlphanum || "_-./,:=+@%".toList.contains c

theorem plain_of_isLiteral {c : Char} (h : isLiteral c = true) : shellRules.Plain c := by
  have hnot : ∀ d, isLiteral d = false → c ≠ d := by
    rintro d hd rfl
    exact Bool.false_ne_true (hd.symm.trans h)
  refine ⟨?_, hnot _ (by decide), hnot _ (by decide), ?_⟩
  · simp [hnot ' ' (by decide), hnot '\t' (by decide)]
  · have hspecial : ∀ d ∈ "|&;<>()$\x60\"*?[]#\x7b\x7d!^~\n".toList, isLiteral d = false := by
      have hall : "|&;<>()$\x60\"*?[]#\x7b\x7d!^~\n".toList.all (fun d => !isLiteral d) = true := by
        decide
      exact fun d hd => (Bool.not_eq_true' _).mp (List.all_eq_true.mp hall d hd)
    refine Bool.eq_false_iff.mpr fun hmem => ?_
    exact hnot c (hspecial c (List.contains_iff_mem.mp hmem)) rfl

/-- A quoted argument spells the argument. -/
theorem spells_shellQuoteArg (arg : Str) : Spells shellRules (shellQuoteArg arg) arg := by
  have hquoted : Spells shellRules ('\'' :: arg.flatMap (fun c => if c = '\'' then "'\\''".toList
      else [c]) ++ ['\'']) arg := spells_enquote quotes_shellRules arg
  unfold shellQuoteArg
  dsimp only
  split
  · next hempty =>
    rw [List.isEmpty_iff.mp hempty]
    exact spells_enquote quotes_shellRules []
  · next hne =>
    split
    · exact hquoted
    · next hlead =>
      split
      · next hliteral =>
        cases arg with
        | nil => exact absurd rfl hne
        | cons c rest =>
          have hplain : ∀ d ∈ c :: rest, isLiteral d = true := List.all_eq_true.mp hliteral
          have hfirst : shellRules.leading c = false := by
            refine decide_eq_false_iff_not.mpr ?_
            rintro rfl
            exact hlead rfl
          exact spells_plain hfirst fun d hd => plain_of_isLiteral (hplain d hd)
      · exact hquoted

/-- A line of quoted arguments is split into the arguments, and so no other arguments give the
same line. -/
theorem split_shellEscapeArgs (args : List Str) :
    split shellRules (shellEscapeArgs args) = some args ∧
      ∀ args', shellEscapeArgs args' = shellEscapeArgs args → args' = args := by
  have hsplit : ∀ list : List Str, split shellRules (shellEscapeArgs list) = some list := by
    intro list
    refine split_intercalate (b := ' ') rfl ?_
    rw [List.forall₂_map_left_iff]
    exact List.forall₂_same.mpr fun arg _ => spells_shellQuoteArg arg
  refine ⟨hsplit args, fun args' heq => ?_⟩
  have hboth := hsplit args'
  rw [heq, hsplit args] at hboth
  exact (Option.some.inj hboth).symm

end Shux.Pty
