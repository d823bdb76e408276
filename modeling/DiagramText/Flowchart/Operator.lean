/-
Link operators and labels: how a link is written between two nodes, and how it is read. A label stands between pipes
after the operator, or inside the operator as text.
-/
import DiagramText.Flowchart.Basic
import DiagramText.Text.Quoted

namespace DiagramText.Flowchart

/-! ## Labels -/

/-- the value of a label as written: quoted, or trimmed -/
def labelValue (token : Text) : Text := if isQuoted token then unquote token else Text.trim token

/-- a character that a label without quotes may hold -/
def isPlainInner (c : Char) : Bool :=
  c ∉ ['"', '[', ']', '(', ')', '\x7b', '\x7d', '/', '\\', '|']

/-- a character that may stand at either end of a label without quotes -/
def isPlainEdge (c : Char) : Bool := isPlainInner c && !isBlank c && c ≠ '-'

/-- the label reads back as itself without quotes; a final line feed is not looked at -/
def isPlainLabel (label : Text) : Bool :=
  let body := if label.getLast? == some '\n' then label.dropLast else label
  Scan.startsWith isPlainEdge body && body.all isPlainInner && Scan.startsWith isPlainEdge body.reverse

/-- a label as it is written -/
def labelText (label : Text) : Text := if isPlainLabel label then label else quote label

/-! ## Writing -/

/-- the character at the end of an operator -/
def Arrow.toText : Arrow → Text
  | .point => ">"
  | .circle => "o"
  | .cross => "x"
  | .open => []

/-- the operator without its label; an open end takes one more stroke character -/
def LinkForm.operator (f : LinkForm) : Text :=
  let stroke : Text :=
    match f.stroke with
    | .dotted => '-' :: List.replicate f.length.toNat '.' ++ ['-']
    | .thick => List.replicate (f.length + if f.arrow = .open then 2 else 1).toNat '='
    | .normal => List.replicate (f.length + if f.arrow = .open then 2 else 1).toNat '-'
  (if f.bidirectional then ['<'] else []) ++ stroke ++ f.arrow.toText

/-- the operator with its label between pipes -/
def LinkForm.toText (f : LinkForm) : Text :=
  f.operator ++
    match Text.present f.label with
    | none => []
    | some label => "|" ++ labelText label ++ "|"

/-! ## Reading -/

/-- the end of an operator, if it has one -/
def arrowEnd : Text → Arrow × Text
  | '>' :: r => (.point, r)
  | 'o' :: r => (.circle, r)
  | 'x' :: r => (.cross, r)
  | r => (.open, r)

/-- an optional opening head -/
def openingHead : Text → Bool × Text
  | '<' :: r => (true, r)
  | r => (false, r)

/-- a link form, unless it is too short or has heads of two kinds -/
def linkForm? (bidirectional : Bool) (stroke : Stroke) (arrow : Arrow) (length : Int) (label : Option Text) :
    Option LinkForm :=
  if length < 1 ∨ (bidirectional ∧ arrow ≠ .point) then none else some ⟨stroke, arrow, length, bidirectional, label⟩

/-- a run of at least two stroke characters -/
def strokeRun? (c : Char) (t : Text) : Option (Nat × Text) :=
  match Text.span (· = c) t with
  | (run, rest) => if 2 ≤ run.length then some (run.length, rest) else none

/-- the length of a solid operator of so many stroke characters -/
def solidLength (strokes : Nat) (arrow : Arrow) : Int := strokes - if arrow = .open then 2 else 1

/-- the dots and the closing hyphen of a dotted operator -/
def dots? (t : Text) : Option (Nat × Text) :=
  match Text.span (· = '.') t with
  | (c :: run, '-' :: rest) => some ((c :: run).length, rest)
  | _ => none

/-- a dotted operator after its first hyphen: dots and a closing hyphen -/
def dotted? (bidirectional : Bool) (t : Text) : Option (Option LinkForm × Text) :=
  (dots? t).map fun (dots, rest) =>
    let (arrow, rest) := arrowEnd rest
    (linkForm? bidirectional .dotted arrow dots none, rest)

/-- a solid operator of one stroke character -/
def solid? (bidirectional : Bool) (stroke : Stroke) (c : Char) (t : Text) : Option (Option LinkForm × Text) :=
  (strokeRun? c t).map fun (strokes, rest) =>
    let (arrow, rest) := arrowEnd rest
    (linkForm? bidirectional stroke arrow (solidLength strokes arrow) none, rest)

/-- an operator without text inside, and the rest; operators of length zero are none -/
def operator? (t : Text) : Option (LinkForm × Text) :=
  let (bidirectional, body) := openingHead t
  let dotted := match body with
    | '-' :: r => dotted? bidirectional r
    | _ => none
  match dotted <|> solid? bidirectional .thick '=' body <|> solid? bidirectional .normal '-' body with
  | some (some form, rest) => some (form, rest)
  | _ => none

/-- the closing half of an operator with text inside, for a stroke -/
def closing? (bidirectional : Bool) : Stroke → Text → Option (Option LinkForm × Text)
  | .normal, t => solid? bidirectional .normal '-' t
  | .thick, t => solid? bidirectional .thick '=' t
  | .dotted, t => dotted? bidirectional t

/-- the opening half of an operator with text inside -/
def openingStroke : Stroke → Text
  | .normal => "--"
  | .thick => "=="
  | .dotted => "-."

/-- text and the closing half after it: the first place where white space and a closing half follow at least one
character. White space before the text may belong to it when there is no other way to read it. -/
def textAndClosing? (bidirectional : Bool) (stroke : Stroke) (t : Text) : Option (Text × Option LinkForm × Text) :=
  Scan.longest isBlank
    (fun run rest =>
      if run = [] then none
      else
        Scan.shortest Scan.notLineFeed
          (fun text rest =>
            if text = [] then none
            else ((Scan.blanks? rest).bind (closing? bidirectional stroke)).map fun (form, rest) => (text, form, rest))
          rest)
    t

/-- a label, unless it is empty -/
def nonemptyLabel (token : Text) : Option Text := Text.present (some (labelValue token))

/-- an operator with text inside, of one stroke -/
def textOperator? (t : Text) (stroke : Stroke) : Option (LinkForm × Text) :=
  let (bidirectional, body) := openingHead t
  match (Text.dropPrefix? (openingStroke stroke) body).bind (textAndClosing? bidirectional stroke) with
  | some (text, some form, rest) => some ({ form with label := nonemptyLabel text }, rest)
  | _ => none

/-- a label between pipes after an operator -/
def pipeLabel? (t : Text) : Option (Text × Text) :=
  match Scan.blanks t with
  | '|' :: r =>
    let plain :=
      match Text.span (· ≠ '|') r with
      | (token, '|' :: rest) => some (token, rest)
      | _ => none
    match Scan.quoted? r with
    | some (token, '|' :: rest) => some (token, rest)
    | _ => plain
  | _ => none

/-- a link operator with its label, in either notation, and the rest -/
def link? (t : Text) : Option (LinkForm × Text) :=
  [Stroke.normal, .thick, .dotted].findSome? (textOperator? t) <|>
    (operator? t).map fun (form, rest) =>
      match pipeLabel? rest with
      | none => (form, rest)
      | some (token, rest) => ({ form with label := nonemptyLabel token }, rest)

/-! ## What is left is the end of the text -/

open Scan (IsRest)

theorem arrowEnd_suffix (t : Text) : (arrowEnd t).2 <:+ t := by
  unfold arrowEnd
  split <;> first | exact List.suffix_cons _ _ | exact List.suffix_rfl

theorem openingHead_suffix (t : Text) : (openingHead t).2 <:+ t := by
  unfold openingHead
  split
  · exact List.suffix_cons _ _
  · exact List.suffix_rfl

theorem dots?_suffix {t rest : Text} {n : Nat} (h : dots? t = some (n, rest)) : rest <:+ t := by
  unfold dots? at h
  split at h
  · rename_i c run rest' hs
    obtain ⟨-, rfl⟩ := Prod.mk.inj (Option.some.inj h)
    rw [Text.eq_append_of_span_eq hs]
    exact (List.suffix_cons '-' rest').trans (List.suffix_append (c :: run) _)
  · exact absurd h nofun

theorem strokeRun?_rest {c : Char} {t rest : Text} {n : Nat} (h : strokeRun? c t = some (n, rest)) : IsRest rest t := by
  unfold strokeRun? at h
  split at h
  rename_i run rest' hs
  obtain ⟨hrun, h⟩ := Option.ite_none_right_eq_some.1 h
  obtain ⟨-, rfl⟩ := Prod.mk.inj (Option.some.inj h)
  rw [Text.eq_append_of_span_eq hs]
  exact .append (List.ne_nil_of_length_pos (by omega)) rest'

theorem dotted?_suffix {b : Bool} {t rest : Text} {f : Option LinkForm} (h : dotted? b t = some (f, rest)) : rest <:+ t := by
  obtain ⟨⟨n, r⟩, hd, he⟩ := Option.map_eq_some_iff.1 h
  obtain ⟨-, rfl⟩ := Prod.mk.inj he
  exact (arrowEnd_suffix r).trans (dots?_suffix hd)

theorem solid?_rest {b : Bool} {s : Stroke} {c : Char} {t rest : Text} {f : Option LinkForm}
    (h : solid? b s c t = some (f, rest)) : IsRest rest t := by
  obtain ⟨⟨n, r⟩, hd, he⟩ := Option.map_eq_some_iff.1 h
  obtain ⟨-, rfl⟩ := Prod.mk.inj he
  exact (strokeRun?_rest hd).of_suffix (arrowEnd_suffix r)

theorem closing?_suffix {b : Bool} {s : Stroke} {t rest : Text} {f : Option LinkForm}
    (h : closing? b s t = some (f, rest)) : rest <:+ t := by
  cases s with
  | normal => exact (solid?_rest h).suffix
  | thick => exact (solid?_rest h).suffix
  | dotted => exact dotted?_suffix h

theorem textAndClosing?_rest {b : Bool} {s : Stroke} {t text rest : Text} {f : Option LinkForm}
    (h : textAndClosing? b s t = some (text, f, rest)) : IsRest rest t := by
  obtain ⟨run, r, rfl, hk⟩ := Scan.exists_of_longest h
  obtain ⟨_, hk⟩ := Option.ite_none_left_eq_some.1 hk
  obtain ⟨word, r', rfl, hw⟩ := Scan.exists_of_shortest hk
  obtain ⟨hword, hm⟩ := Option.ite_none_left_eq_some.1 hw
  obtain ⟨⟨g, r2⟩, hc, he⟩ := Option.map_eq_some_iff.1 hm
  obtain ⟨r3, hb, hc⟩ := Option.bind_eq_some_iff.1 hc
  simp only [Prod.mk.injEq] at he
  obtain ⟨-, -, rfl⟩ := he
  have hrest : r2 <:+ r' := (closing?_suffix hc).trans (Scan.blanks?_suffix hb)
  exact ((IsRest.append hword r').of_suffix hrest).trans_suffix (List.suffix_append run _)

theorem textOperator?_rest {t rest : Text} {s : Stroke} {f : LinkForm} (h : textOperator? t s = some (f, rest)) :
    IsRest rest t := by
  unfold textOperator? at h
  dsimp only at h
  split at h
  · rename_i text form rest' hm
    obtain ⟨r, hp, hm⟩ := Option.bind_eq_some_iff.1 hm
    obtain ⟨-, rfl⟩ := Prod.mk.inj (Option.some.inj h)
    have hr : r <:+ (openingHead t).2 := Text.dropPrefix?_eq_some_iff.1 hp ▸ List.suffix_append _ r
    exact (textAndClosing?_rest hm).trans_suffix (hr.trans (openingHead_suffix t))
  · exact absurd h nofun

theorem operator?_rest {t rest : Text} {f : LinkForm} (h : operator? t = some (f, rest)) : IsRest rest t := by
  unfold operator? at h
  dsimp only at h
  split at h
  · rename_i form rest' hm
    obtain ⟨-, rfl⟩ := Prod.mk.inj (Option.some.inj h)
    refine IsRest.trans_suffix ?_ (openingHead_suffix t)
    simp only [Scan.orElse_eq_some_iff] at hm
    rcases hm with hm | ⟨_, hm | ⟨_, hm⟩⟩
    · split at hm
      · rename_i r hb
        rw [hb]
        exact (IsRest.append (List.cons_ne_nil '-' []) r).of_suffix (dotted?_suffix hm)
      · exact absurd hm nofun
    · exact solid?_rest hm
    · exact solid?_rest hm
  · exact absurd h nofun

theorem pipeLabel?_suffix {t token rest : Text} (h : pipeLabel? t = some (token, rest)) : rest <:+ t := by
  unfold pipeLabel? at h
  split at h
  · rename_i r hr
    have hbar : r <:+ t := (List.suffix_cons '|' r).trans (hr ▸ List.dropWhile_suffix isBlank)
    dsimp only at h
    split at h
    · rename_i q rest' hq
      obtain ⟨-, rfl⟩ := Prod.mk.inj (Option.some.inj h)
      refine List.IsSuffix.trans ?_ hbar
      rw [Scan.quoted?_append hq]
      exact (List.suffix_cons '|' rest').trans (List.suffix_append q _)
    · split at h
      · rename_i token' rest' hs
        obtain ⟨-, rfl⟩ := Prod.mk.inj (Option.some.inj h)
        refine List.IsSuffix.trans ?_ hbar
        rw [Text.eq_append_of_span_eq hs]
        exact (List.suffix_cons '|' rest').trans (List.suffix_append token' _)
      · exact absurd h nofun
  · exact absurd h nofun

theorem link?_rest {t rest : Text} {f : LinkForm} (h : link? t = some (f, rest)) : IsRest rest t := by
  unfold link? at h
  simp only [Scan.orElse_eq_some_iff] at h
  rcases h with h | ⟨_, h⟩
  · obtain ⟨s, _, hs⟩ := List.exists_of_findSome?_eq_some h
    exact textOperator?_rest hs
  · obtain ⟨⟨g, r⟩, ho, he⟩ := Option.map_eq_some_iff.1 h
    dsimp only at he
    split at he
    · obtain ⟨-, rfl⟩ := Prod.mk.inj he
      exact operator?_rest ho
    · rename_i token r' hp
      obtain ⟨-, rfl⟩ := Prod.mk.inj he
      exact (operator?_rest ho).of_suffix (pipeLabel?_suffix hp)

end DiagramText.Flowchart
