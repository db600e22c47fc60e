import Lox.Proofs.PrintedValues
import Lox.Proofs.Unquoting

/-!
# Trees by the names of their nodes

A tree printed by the names of its nodes can be told from its text: the first letter tells the node,
a comma ends the name of an operator, and an operand ends where its own text does. Strings are no
exception, since they stand in quotes.

- `Value.treeLiteral_append_inj`: a literal ends at its closing parenthesis.
- `Expr.tree_append_inj`: a printed tree in front of a text can be told, and so can the text.
- `tree_print_eq_iff`: trees print the same if and only if they are alike.
-/

namespace Lox

/-! ### Names -/

theorem UnaryOp.name_inj {op op' : UnaryOp} (h : op.name = op'.name) : op = op' :=
  List.inj_on_of_nodup_map (by decide : (all.map name).Nodup) op.mem_all op'.mem_all h

theorem BinaryOp.name_inj {op op' : BinaryOp} (h : op.name = op'.name) : op = op' :=
  List.inj_on_of_nodup_map (by decide : (all.map name).Nodup) op.mem_all op'.mem_all h

theorem UnaryOp.comma_notMem_name (op : UnaryOp) : ',' ∉ op.name.toList :=
  (by decide : ∀ op ∈ all, ',' ∉ op.name.toList) op op.mem_all

theorem BinaryOp.comma_notMem_name (op : BinaryOp) : ',' ∉ op.name.toList :=
  (by decide : ∀ op ∈ all, ',' ∉ op.name.toList) op op.mem_all

/-! ### Literals -/

/-- The opening quote tells a string from every other literal. -/
theorem quoted_append_ne {w : Value} (hw : w.isString = false) (s : String) (more rest : List Char) :
    (Text.Quoted.string s).toList ++ more ≠ (Style.treeLiteral w).toList ++ ')' :: rest := by
  have hquote : '"' ∉ (Style.treeLiteral w).toList :=
    Value.spelling_treeLiteral.notMem hw (by decide) (by decide)
  intro h
  rw [Text.Quoted.string, Text.Quoted.between, String.toList_ofList] at h
  cases htext : (Style.treeLiteral w).toList with
  | nil =>
    rw [htext] at h
    cases h
  | cons c text =>
    rw [htext] at h hquote
    obtain ⟨rfl, -⟩ := List.cons.inj h
    exact hquote List.mem_cons_self

/-- **A literal ends at its closing parenthesis**, also if it is a string with parentheses in it. -/
theorem Value.treeLiteral_append_inj {v w : Value} {rest rest' : List Char}
    (h : (Style.treeLiteral v).toList ++ ')' :: rest = (Style.treeLiteral w).toList ++ ')' :: rest') :
    v.Alike w ∧ rest = rest' := by
  by_cases hv : v.isString = false
  · by_cases hw : w.isString = false
    · obtain ⟨htext, hrest⟩ := append_mark_inj (spelling_treeLiteral.notMem hv rfl (by decide))
        (spelling_treeLiteral.notMem hw rfl (by decide)) h
      exact ⟨(spelling_treeLiteral.eq_iff hv hw).mp (String.toList_inj.mp htext), hrest⟩
    · cases w with
      | string s => exact absurd h.symm (quoted_append_ne hv s _ rest)
      | _ => exact absurd rfl hw
  · cases v with
    | string s =>
      by_cases hw : w.isString = false
      · exact absurd h (quoted_append_ne hw s _ rest')
      · cases w with
        | string s' =>
          obtain ⟨rfl, hmore⟩ := Text.Quoted.string_append_inj h
          exact ⟨.string s, (List.cons.inj hmore).2⟩
        | _ => exact absurd rfl hw
    | _ => exact absurd rfl hv

/-! ### Trees -/

namespace Expr

section

variable (rest : List Char)

theorem tree_literal_append (v : Value) :
    ((literal v).render .tree).toList ++ rest
      = "Literal(".toList ++ ((Style.treeLiteral v).toList ++ ')' :: rest) := by
  simp [render, Style.tree]

theorem tree_grouping_append (inner : Expr) :
    ((grouping inner).render .tree).toList ++ rest
      = "Grouping(".toList ++ ((inner.render .tree).toList ++ ')' :: rest) := by
  simp [render, Style.tree]

theorem tree_unary_append (op : UnaryOp) (t : Token) (right : Expr) :
    ((unary op t right).render .tree).toList ++ rest
      = "Unary(".toList
        ++ (op.name.toList ++ ',' :: ' ' :: ((right.render .tree).toList ++ ')' :: rest)) := by
  simp [render, Style.tree]

theorem tree_binary_append (left : Expr) (op : BinaryOp) (t : Token) (right : Expr) :
    ((binary left op t right).render .tree).toList ++ rest
      = "Binary(".toList ++ ((left.render .tree).toList ++ ',' :: ' '
        :: (op.name.toList ++ ',' :: ' ' :: ((right.render .tree).toList ++ ')' :: rest))) := by
  simp [render, Style.tree]

end

/-- **A printed tree in front of a text can be told**, and so can the text. -/
theorem tree_append_inj {e e' : Expr} {rest rest' : List Char}
    (h : (e.render .tree).toList ++ rest = (e'.render .tree).toList ++ rest') :
    e.Alike e' ∧ rest = rest' := by
  induction e generalizing e' rest rest' with
  | literal v =>
    cases e' with
    | literal w =>
      rw [tree_literal_append, tree_literal_append] at h
      obtain ⟨halike, hrest⟩ := Value.treeLiteral_append_inj (List.append_cancel_left h)
      exact ⟨.literal halike, hrest⟩
    | _ => simp [render, Style.tree] at h
  | grouping inner ih =>
    cases e' with
    | grouping inner' =>
      rw [tree_grouping_append, tree_grouping_append] at h
      obtain ⟨halike, hrest⟩ := ih (List.append_cancel_left h)
      exact ⟨.grouping halike, (List.cons.inj hrest).2⟩
    | _ => simp [render, Style.tree] at h
  | unary op t right ih =>
    cases e' with
    | unary op' t' right' =>
      rw [tree_unary_append, tree_unary_append] at h
      obtain ⟨hname, hmore⟩ := append_mark_inj op.comma_notMem_name op'.comma_notMem_name
        (List.append_cancel_left h)
      obtain rfl := UnaryOp.name_inj (String.toList_inj.mp hname)
      obtain ⟨halike, hrest⟩ := ih (List.cons.inj hmore).2
      exact ⟨.unary halike, (List.cons.inj hrest).2⟩
    | _ => simp [render, Style.tree] at h
  | binary left op t right ihl ihr =>
    cases e' with
    | binary left' op' t' right' =>
      rw [tree_binary_append, tree_binary_append] at h
      -- the left operand ends by itself, the name at the next comma
      obtain ⟨hleft, hbehind⟩ := ihl (List.append_cancel_left h)
      obtain ⟨hname, hmore⟩ := append_mark_inj op.comma_notMem_name op'.comma_notMem_name
        (List.cons.inj (List.cons.inj hbehind).2).2
      obtain rfl := BinaryOp.name_inj (String.toList_inj.mp hname)
      obtain ⟨hright, hrest⟩ := ihr (List.cons.inj hmore).2
      exact ⟨.binary hleft hright, (List.cons.inj hrest).2⟩
    | _ => simp [render, Style.tree] at h

end Expr

/-- **Trees printed by the names of their nodes are the same text if and only if they are alike.**
Strings in them may hold anything. -/
theorem tree_print_eq_iff (e e' : Expr) :
    Printer.tree.print e = Printer.tree.print e' ↔ e.Alike e' := by
  constructor
  · intro h
    have htext := congrArg (·.toList ++ []) h
    exact (Expr.tree_append_inj htext).1
  · intro h
    exact h.print_eq .tree

end Lox
