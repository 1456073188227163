import DatawerxMesh.Go.Text

/-!
# The Graphviz rendering

The graph of `pkg/meshgraph/graph.go` and its `DOT` of `dot.go`, read back with the rule of quoted
strings in DOT: a backslash takes the next byte with it.
-/

namespace DatawerxMesh.Meshgraph

open Go List

/-- What a node stands for. -/
inductive NodeKind where
  | cluster
  | service
  deriving DecidableEq

/-- What an edge says about its ends. -/
inductive EdgeKind where
  | peering
  | imports
  | serves
  | exports
  | allows
  deriving DecidableEq

/-- A node, with the fields of its kind set. -/
structure Node where
  id : Str
  kind : NodeKind
  label : Str := []
  local_ : Bool := false
  clusterID : Str := []
  phase : Str := []
  endpoint : Str := []
  conflict : Bool := false
  namespace_ : Str := []
  name : Str := []
  imported : Bool := false
  exported : Bool := false
  importType : Str := []
  ips : List Str := []
  deriving DecidableEq

/-- A relation between two nodes. -/
structure Edge where
  from_ : Str
  to_ : Str
  kind : EdgeKind
  phase : Str := []
  conflict : Bool := false
  policy : Str := []
  deriving DecidableEq

/-- The graph that one snapshot shows. -/
structure Graph where
  apiVersion : Str := "mesh.datawerx.io/graph/v1alpha1"
  kind : Str := "MeshGraph"
  generatedAt : Int
  nodes : List Node
  edges : List Edge
  deriving DecidableEq

/-- `strings.ReplaceAll` of a byte. -/
def replaceAll (s : Str) (old : UInt8) (new : Str) : Str :=
  s.flatMap fun byte => if byte = old then new else [byte]

/-- A quoted string of DOT. -/
def dotQuote (s : Str) : Str :=
  34 :: replaceAll (replaceAll (replaceAll s 92 [92, 92]) 34 [92, 34]) 10 [92, 110] ++ [34]

/-- The identifier of a node in DOT. -/
def dotID (id : Str) : Str := dotQuote id

/-- The text shown in a node. -/
def nodeLabel (n : Node) : Str :=
  match n.kind with
  | .cluster => if n.local_ ∨ n.phase = [] then n.label else n.label ++ 10 :: n.phase
  | .service =>
    if n.imported && n.exported then n.label ++ "\nimport+export"
    else if n.imported then
      if n.importType ≠ [] then n.label ++ 10 :: n.importType else n.label ++ "\nimport"
    else if n.exported then n.label ++ "\nexport" else n.label

/-- The text shown at an edge. -/
def edgeLabel (e : Edge) : Str :=
  match e.kind with
  | .peering => "peers"
  | .serves => "serves"
  | .imports => "imported by"
  | .exports => "exports"
  | .allows =>
    if e.policy ≠ [] then "allows (" ++ e.policy ++ ")" else "allows"

/-- The attributes of a node behind its label. -/
def nodeStyle (n : Node) : List Str :=
  match n.kind with
  | .cluster =>
    ["shape=box", "style=\"rounded,filled\"",
      if n.local_ then "fillcolor=\"#d8e8ff\""
      else if n.conflict then "fillcolor=\"#ffd8d8\"" else "fillcolor=\"#f0f0f0\""]
  | .service => ["shape=ellipse", "style=filled", "fillcolor=\"#e8ffe8\""]

/-- The attributes of an edge behind its label. -/
def edgeStyle (e : Edge) : List Str :=
  match e.kind with
  | .peering =>
    if e.conflict ∨ e.phase = "Error" then ["color=\"#cc0000\"", "penwidth=2"]
    else if e.phase = "Connected" then ["color=\"#1a7f1a\""]
    else ["color=\"#999999\"", "style=dashed"]
  | .serves => ["color=\"#1a7f1a\"", "style=dotted"]
  | .imports => ["color=\"#333333\""]
  | .exports => ["color=\"#1a4f9f\""]
  | .allows => ["color=\"#8a4fbf\"", "style=dashed"]

/-- The attribute list of a node. -/
def dotNodeAttrs (n : Node) : Str :=
  join ", " (("label=" ++ dotQuote (nodeLabel n)) :: nodeStyle n)

/-- The attribute list of an edge. -/
def dotEdgeAttrs (e : Edge) : Str :=
  join ", " (("label=" ++ dotQuote (edgeLabel e)) :: edgeStyle e)

/-- The lines before the first node. -/
def dotHeader : Str :=
  "digraph mesh \x7b\n" ++ "  rankdir=LR;\n" ++ "  node [fontname=\"Helvetica\"];\n" ++
    "  edge [fontname=\"Helvetica\", fontsize=10];\n"

/-- The rendering of a graph. -/
def Graph.dot (g : Graph) : Str :=
  dotHeader ++ (g.nodes.flatMap (fun n =>
      str "  " ++ dotID n.id ++ str " [" ++ dotNodeAttrs n ++ str "];\n") ++
    (g.edges.flatMap (fun e => str "  " ++ dotID e.from_ ++ str " -> " ++ dotID e.to_ ++
      str " [" ++ dotEdgeAttrs e ++ str "];\n") ++ str "\x7d\n"))

/-- A quoted string, still escaped, or a byte outside of one. -/
inductive Token where
  | quoted (raw : Str)
  | byte (value : UInt8)
  deriving DecidableEq

/-- Where a reader of DOT stands. -/
inductive Mode where
  | outside
  | inside (raw : Str)
  | escaped (raw : Str)
  deriving DecidableEq

/-- One byte of the text. -/
def Mode.read : Mode → UInt8 → List Token × Mode
  | outside, byte => if byte = 34 then ([], inside []) else ([.byte byte], outside)
  | inside raw, byte =>
    if byte = 34 then ([.quoted raw], outside)
    else ([], if byte = 92 then escaped (raw ++ [92]) else inside (raw ++ [byte]))
  | escaped raw, byte => ([], inside (raw ++ [byte]))

/-- The tokens of a text and the mode behind it. -/
def scan (mode : Mode) : Str → List Token × Mode
  | [] => ([], mode)
  | byte :: rest =>
    ((mode.read byte).1 ++ (scan (mode.read byte).2 rest).1, (scan (mode.read byte).2 rest).2)

/-- What an escaped text stands for. -/
def unescape : Str → Str
  | 92 :: byte :: rest => (if byte = 110 then 10 else byte) :: unescape rest
  | byte :: rest => byte :: unescape rest
  | [] => []

/-- A statement of a DOT graph. -/
inductive Statement where
  | node (id : Str)
  | edge (from_ to_ : Str)
  deriving DecidableEq

/-- What an attribute list may hold. -/
def Token.inner : Token → Bool
  | quoted _ => true
  | byte value => value ∉ [59, 91, 93, 123, 125]

/-- The rest of an attribute list. -/
def closesAttributes (tokens : List Token) : Bool :=
  tokens.getLast? = some (.byte 93) && tokens.dropLast.all Token.inner

/-- The statement that some tokens form. -/
def Statement.ofTokens : List Token → Option Statement
  | .quoted id :: .byte 91 :: rest =>
    if closesAttributes rest then some (.node (unescape id)) else none
  | .quoted from_ :: .byte 45 :: .byte 62 :: .quoted to_ :: .byte 91 :: rest =>
    if closesAttributes rest then some (.edge (unescape from_) (unescape to_)) else none
  | _ => none

/-- The tokens without the blanks between them. -/
def visible (tokens : List Token) : List Token :=
  tokens.filter fun token => token ∉ [.byte 32, .byte 10]

/-- The node and edge statements of a text. -/
def statements (text : Str) : List Statement :=
  ((visible (scan .outside text).1).splitOn (.byte 59)).filterMap Statement.ofTokens

/-- A text has these tokens and ends outside of a quoted string. -/
def Reads (text : Str) (tokens : List Token) : Prop := scan .outside text = (tokens, .outside)

instance (text : Str) (tokens : List Token) : Decidable (Reads text tokens) :=
  inferInstanceAs (Decidable (_ = _))

variable {text rest : Str} {tokens : List Token}

theorem scan_append (mode : Mode) (text rest : Str) : scan mode (text ++ rest) =
    ((scan mode text).1 ++ (scan (scan mode text).2 rest).1, (scan (scan mode text).2 rest).2) := by
  induction text generalizing mode with
  | nil => rfl
  | cons byte text ih => simp only [cons_append, scan, ih, append_assoc]

theorem Reads.append {more : List Token} (first : Reads text tokens) (second : Reads rest more) :
    Reads (text ++ rest) (tokens ++ more) := by
  rw [Reads, scan_append, first, second]

/-- The three replacements, byte by byte. -/
def escape (byte : UInt8) : Str :=
  if byte = 92 then [92, 92] else if byte = 34 then [92, 34] else if byte = 10 then [92, 110]
  else [byte]

theorem dotQuote_eq (s : Str) : dotQuote s = 34 :: (s.flatMap escape ++ [34]) := by
  simp only [dotQuote, replaceAll, flatMap_assoc]
  refine congrArg (34 :: · ++ [34]) (flatMap_congr fun byte _ => ?_)
  rw [escape]
  split
  · rfl
  · simp only [flatMap_cons, flatMap_nil, append_nil]
    split
    · rfl
    · simp

theorem scan_escape (raw s : Str) :
    scan (.inside raw) (s.flatMap escape) = ([], .inside (raw ++ s.flatMap escape)) := by
  induction s generalizing raw with
  | nil => simp [scan]
  | cons byte s ih =>
    have one : scan (.inside raw) (escape byte) = ([], .inside (raw ++ escape byte)) := by
      rw [escape]
      split_ifs <;> simp [scan, Mode.read, *]
    rw [flatMap_cons, scan_append, one, ih, append_assoc]
    rfl

theorem reads_dotQuote (s : Str) : Reads (dotQuote s) [.quoted (s.flatMap escape)] := by
  rw [Reads, dotQuote_eq, scan, Mode.read, if_pos rfl, scan_append, scan_escape]
  rfl

theorem unescape_escape (s : Str) : unescape (s.flatMap escape) = s := by
  induction s with
  | nil => rfl
  | cons byte s ih =>
    rw [flatMap_cons, escape]
    split_ifs with slash quote line
    · simp [unescape, ih, slash]
    · simp [unescape, ih, quote]
    · simp [unescape, ih, line]
    · rw [singleton_append, unescape, ih]
      exact fun _ _ same => absurd same slash

theorem dotID_injective : Function.Injective dotID := by
  intro id id' same
  rw [dotID, dotID, dotQuote_eq, dotQuote_eq] at same
  rw [← unescape_escape id, append_cancel_right (List.cons.inj same).2, unescape_escape]

/-- A text that stays inside an attribute list. -/
def Quiet (text : Str) : Prop := ∃ tokens, Reads text tokens ∧ tokens.all Token.inner = true

theorem Quiet.append (first : Quiet text) (second : Quiet rest) : Quiet (text ++ rest) := by
  obtain ⟨tokens, reads, inner⟩ := first
  obtain ⟨more, reads', inner'⟩ := second
  exact ⟨tokens ++ more, reads.append reads', by rw [all_append, inner, inner', Bool.and_self]⟩

theorem quiet_of_scan (quiet : (scan .outside text).2 = .outside ∧
    (scan .outside text).1.all Token.inner = true) : Quiet text :=
  ⟨(scan .outside text).1, Prod.ext rfl quiet.1, quiet.2⟩

theorem quiet_join {attrs : List Str} (quiet : ∀ attr ∈ attrs, Quiet attr) :
    Quiet (join ", " attrs) := by
  induction attrs using join.induct with
  | case1 => exact ⟨[], rfl, rfl⟩
  | case2 last => exact quiet last mem_cons_self
  | case3 first rest more ih =>
    rw [join]
    · refine ((quiet first mem_cons_self).append (quiet_of_scan (by decide))).append ?_
      exact ih fun attr mem => quiet attr (mem_cons_of_mem _ mem)
    · exact more

theorem quiet_attrs (label : Str) {style : List Str} (quiet : ∀ attr ∈ style, Quiet attr) :
    Quiet (join ", " (("label=" ++ dotQuote label) :: style)) := by
  refine quiet_join (forall_mem_cons.mpr ⟨?_, quiet⟩)
  exact (quiet_of_scan (by decide)).append ⟨_, reads_dotQuote label, rfl⟩

theorem quiet_dotNodeAttrs (n : Node) : Quiet (dotNodeAttrs n) := by
  refine quiet_attrs _ fun attr mem => quiet_of_scan ?_
  revert attr
  rw [nodeStyle]
  split
  · split_ifs <;> decide
  · decide

theorem quiet_dotEdgeAttrs (e : Edge) : Quiet (dotEdgeAttrs e) := by
  refine quiet_attrs _ fun attr mem => quiet_of_scan ?_
  revert attr
  rw [edgeStyle]
  split
  · split_ifs <;> decide
  all_goals decide

theorem statements_append (reads : Reads text tokens) :
    statements (text ++ ";\n" ++ rest) = statements text ++ statements rest := by
  have separator : Reads ";\n" [.byte 59, .byte 10] := by
    decide
  have whole : (scan .outside (text ++ ";\n" ++ rest)).1 =
      tokens ++ [.byte 59, .byte 10] ++ (scan .outside rest).1 := by
    rw [scan_append, reads.append separator]
  rw [statements, whole, statements, reads, visible, filter_append, filter_append,
    ← visible, ← visible, append_assoc]
  exact (congrArg _ (splitOn_append_cons_self _ _)).trans filterMap_append

/-- A text of one statement. -/
def Shows (text : Str) (statement : Statement) : Prop :=
  (∃ tokens, Reads text tokens) ∧ statements text = [statement]

theorem statements_lines {α : Type} {line : α → Str} {statement : α → Statement}
    (shows_ : ∀ item, Shows (line item ++ "]") (statement item)) (items : List α) :
    statements (items.flatMap (fun item => line item ++ str "];\n") ++ rest) =
      items.map statement ++ statements rest := by
  induction items with
  | nil => rfl
  | cons item items ih =>
    obtain ⟨⟨tokens, reads⟩, one⟩ := shows_ item
    have line_eq : line item ++ "];\n" = line item ++ "]" ++ ";\n" :=
      (append_assoc _ (str "]") (str ";\n")).symm
    rw [flatMap_cons, line_eq, append_assoc (_ ++ str ";\n"), statements_append reads, one, ih]
    rfl

theorem shows_of_reads {attrs : Str} {statement : Statement} (reads : Reads text tokens)
    (absent : .byte 59 ∉ tokens) (quiet : Quiet attrs)
    (ofTokens_eq : ∀ rest, closesAttributes rest = true →
      Statement.ofTokens (visible tokens ++ .byte 91 :: rest) = some statement) :
    Shows (text ++ " [" ++ attrs ++ "]") statement := by
  obtain ⟨attributes, reads_attrs, inner⟩ := quiet
  have opens : Reads " [" [.byte 32, .byte 91] := by
    decide
  have closes : Reads "]" [.byte 93] := by
    decide
  have whole := ((reads.append opens).append reads_attrs).append closes
  rw [all_eq_true] at inner
  have closed : closesAttributes (visible attributes ++ [.byte 93]) = true := by
    simp only [closesAttributes, List.getLast?_concat, dropLast_concat, decide_true,
      Bool.true_and, all_eq_true]
    exact fun token mem => inner token (mem_of_mem_filter mem)
  have absent' : .byte 59 ∉ visible tokens ++ .byte 91 :: (visible attributes ++ [.byte 93]) := by
    have outside : .byte 59 ∉ attributes := fun seen => absurd (inner _ seen) (by decide)
    simp [visible, absent, outside]
  have shown : visible (tokens ++ [.byte 32, .byte 91] ++ attributes ++ [.byte 93]) =
      visible tokens ++ .byte 91 :: (visible attributes ++ [.byte 93]) := by
    simp [visible]
  refine ⟨⟨_, whole⟩, ?_⟩
  rw [statements, whole, shown, splitOn_eq_singleton absent', filterMap_cons_some
    (ofTokens_eq _ closed), filterMap_nil]

theorem reads_margin : Reads "  " [.byte 32, .byte 32] := by
  decide

theorem shows_node (id : Str) {attrs : Str} (quiet : Quiet attrs) :
    Shows ("  " ++ dotID id ++ " [" ++ attrs ++ "]") (.node id) := by
  refine shows_of_reads (reads_margin.append (reads_dotQuote id)) (by simp) quiet ?_
  intro rest closed
  simp [visible, Statement.ofTokens, closed, unescape_escape]

theorem shows_edge (from_ to_ : Str) {attrs : Str} (quiet : Quiet attrs) :
    Shows ("  " ++ dotID from_ ++ " -> " ++ dotID to_ ++ " [" ++ attrs ++ "]")
      (.edge from_ to_) := by
  have arrow : Reads " -> " [.byte 32, .byte 45, .byte 62, .byte 32] := by
    decide
  refine shows_of_reads (((reads_margin.append (reads_dotQuote from_)).append arrow).append
    (reads_dotQuote to_)) (by simp) quiet ?_
  intro rest closed
  simp [visible, Statement.ofTokens, closed, unescape_escape]

end DatawerxMesh.Meshgraph
