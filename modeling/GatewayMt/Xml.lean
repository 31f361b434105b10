import GatewayMt.Unicode
import Mathlib.Data.List.Infix

/-!
# XML documents of elements and text

The part of XML 1.0 that the `GetBucketCors` body is written in: elements
without attributes and text with the predefined entities.  `parse` reads a
document into a tree and checks what well-formedness asks of this part: names,
end tags that match their start tags, a single root element, and text as
`encoding/xml`'s `Decoder.text` reads it: no `]]>`, `\r` and `\r\n` read as
`\n`, and valid UTF-8 of XML characters.  It accepts less than XML does (no
attributes, comments, character references or white space in tags), so what
it accepts is well formed and read as any XML parser reads it.

`Node.render` writes a tree without escaping, as `fmt.Fprintf` with `%s` does;
on trees whose text needs no escape, `parse` reads the rendering back.
-/

namespace GatewayMt.Xml

inductive Node where
  | text (data : Bytes)
  | element (name : Bytes) (children : List Node)

def Node.isText : Node → Bool
  | .text _ => true
  | .element _ _ => false

def startTag (name : Bytes) : Bytes := ascii '<' :: name ++ [ascii '>']

def endTag (name : Bytes) : Bytes := ascii '<' :: ascii '/' :: name ++ [ascii '>']

mutual
def Node.render : Node → Bytes
  | .text data => data
  | .element name children => startTag name ++ Node.renderAll children ++ endTag name

def Node.renderAll : List Node → Bytes
  | [] => []
  | node :: nodes => node.render ++ Node.renderAll nodes
end

@[simp]
theorem Node.render_text (data : Bytes) : (Node.text data).render = data := rfl

@[simp]
theorem Node.render_element (name : Bytes) (children : List Node) :
    (Node.element name children).render = startTag name ++ Node.renderAll children ++ endTag name :=
  rfl

@[simp]
theorem Node.renderAll_nil : Node.renderAll [] = [] := rfl

@[simp]
theorem Node.renderAll_cons (node : Node) (nodes : List Node) :
    Node.renderAll (node :: nodes) = node.render ++ Node.renderAll nodes := rfl

/-! ## Reading -/

/-- `NameStartChar` of XML, in ASCII. -/
def isNameStart (b : UInt8) : Bool :=
  b == ascii ':' || b == ascii '_' || (ascii 'A' ≤ b && b ≤ ascii 'Z') ||
    (ascii 'a' ≤ b && b ≤ ascii 'z')

/-- `NameChar` of XML, in ASCII. -/
def isNameByte (b : UInt8) : Bool :=
  isNameStart b || b == ascii '-' || b == ascii '.' || (ascii '0' ≤ b && b ≤ ascii '9')

/-- `isInCharacterRange` of `encoding/xml`: the `Char` production of XML. -/
def isInCharacterRange (r : Unicode.Rune) : Bool :=
  r == 0x09 || r == 0x0A || r == 0x0D || (0x20 ≤ r && r ≤ 0xD7FF) ||
    (0xE000 ≤ r && r ≤ 0xFFFD) || (0x10000 ≤ r && r ≤ 0x10FFFF)

/-- The last loop of `Decoder.text`: every rune of the text is valid UTF-8 and
an XML character. -/
def validText (data : Bytes) : Bool :=
  (Unicode.runes data).all fun (r, size) =>
    !(r == Unicode.runeError && size == 1) && isInCharacterRange r

/-- The predefined entities: the name between `&` and `;`, and its byte. -/
def entity (name : Bytes) : Option UInt8 :=
  if name = .ofAscii "lt" then some (ascii '<')
  else if name = .ofAscii "gt" then some (ascii '>')
  else if name = .ofAscii "amp" then some (ascii '&')
  else if name = .ofAscii "apos" then some 39
  else if name = .ofAscii "quot" then some 34
  else none

mutual
/-- The loop of `Decoder.text` over character data: the text up to the next `<`
or the end of the input, references replaced by their bytes and `\r` and
`\r\n` written as `\n`; `b0` and `b1` are the two bytes read before, against
which a `>` is checked for `]]>`. -/
def parseChars (b0 b1 : UInt8) : Bytes → Option (Bytes × Bytes)
  | [] => some ([], [])
  | b :: rest =>
      if b0 = ascii ']' ∧ b1 = ascii ']' ∧ b = ascii '>' then none
      else if b = ascii '<' then some ([], b :: rest)
      else if b = ascii '&' then parseReference [] rest
      else if b = 13 then (parseChars b1 b rest).map fun (text, after) => (10 :: text, after)
      else if b1 = 13 ∧ b = 10 then parseChars b1 b rest
      else (parseChars b1 b rest).map fun (text, after) => (b :: text, after)

/-- The rest of a reference whose name so far is `name`. -/
def parseReference (name : Bytes) : Bytes → Option (Bytes × Bytes)
  | [] => none
  | b :: rest =>
      if b = ascii ';' then
        (entity name).bind fun byte =>
          (parseChars 0 0 rest).map fun (text, after) => (byte :: text, after)
      else if isNameByte b then parseReference (name ++ [b]) rest
      else none
end

/-- Character data as `Decoder.text` returns it, refused unless it is valid
UTF-8 of XML characters. -/
def parseText (input : Bytes) : Option (Bytes × Bytes) :=
  (parseChars 0 0 input).bind fun (text, after) =>
    if validText text then some (text, after) else none

/-- A name at the start of `input`, and what follows it. -/
def parseName (input : Bytes) : Option (Bytes × Bytes) :=
  let name := input.takeWhile isNameByte
  if name.head?.map isNameStart = some true then some (name, input.drop name.length) else none

/-- What follows `expected` in `input`, if `input` starts with it. -/
def afterPrefix (expected input : Bytes) : Option Bytes :=
  if expected.isPrefixOf input then some (input.drop expected.length) else none

/-- The nodes of an element's content, up to the next end tag or the end of the
input; `fuel` bounds the nesting. -/
def parseContent : Nat → Bytes → Option (List Node × Bytes)
  | 0, _ => none
  | _ + 1, [] => some ([], [])
  | fuel + 1, b :: rest =>
      if b = ascii '<' then
        if rest.head? = some (ascii '/') then some ([], b :: rest)
        else do
          let (name, afterName) ← parseName rest
          let content ← afterPrefix [ascii '>'] afterName
          let (children, afterContent) ← parseContent fuel content
          let afterElement ← afterPrefix (endTag name) afterContent
          let (nodes, after) ← parseContent fuel afterElement
          pure (.element name children :: nodes, after)
      else do
        let (text, afterText) ← parseText (b :: rest)
        let (nodes, after) ← parseContent fuel afterText
        pure (.text text :: nodes, after)

/-- A document: one element and nothing after it. -/
def parse (input : Bytes) : Option Node :=
  match parseContent (input.length + 1) input with
  | some ([.element name children], []) => some (.element name children)
  | _ => none

/-! ## Trees that read back -/

def IsName (name : Bytes) : Prop :=
  name.head?.map isNameStart = some true ∧ ∀ b ∈ name, isNameByte b = true

/-- Text that `parseText` reads as written: XML characters in valid UTF-8, with
no markup (`<`, `&`), no carriage return (read as a line feed) and no `]]>`
(refused in text). -/
structure AsWritten (text : Bytes) : Prop where
  valid : validText text = true
  noOpen : ascii '<' ∉ text
  noReference : ascii '&' ∉ text
  noReturn : (13 : UInt8) ∉ text
  noCDataEnd : ¬ [ascii ']', ascii ']', ascii '>'] <:+: text

instance (text : Bytes) : Decidable (AsWritten text) :=
  decidable_of_iff (validText text = true ∧ ascii '<' ∉ text ∧ ascii '&' ∉ text ∧
      (13 : UInt8) ∉ text ∧ ¬ [ascii ']', ascii ']', ascii '>'] <:+: text)
    ⟨fun ⟨valid, noOpen, noReference, noReturn, noCDataEnd⟩ =>
      ⟨valid, noOpen, noReference, noReturn, noCDataEnd⟩,
    fun ⟨valid, noOpen, noReference, noReturn, noCDataEnd⟩ =>
      ⟨valid, noOpen, noReference, noReturn, noCDataEnd⟩⟩

/-- Content whose rendering `parseContent` reads back: names are XML names, and
each text is non-empty, read as written, and not followed by more text. -/
inductive Plain : List Node → Prop where
  | nil : Plain []
  | text {data : Bytes} {nodes : List Node} (nonempty : data ≠ []) (written : AsWritten data)
      (next : ∀ node ∈ nodes.head?, node.isText = false)
      (rest : Plain nodes) : Plain (.text data :: nodes)
  | element {name : Bytes} {children nodes : List Node} (isName : IsName name)
      (inner : Plain children) (rest : Plain nodes) : Plain (.element name children :: nodes)

/-- What may follow content: an end tag or the end of the input. -/
def EndsContent (rest : Bytes) : Prop := rest = [] ∨ ∃ tail, rest = ascii '<' :: ascii '/' :: tail

theorem afterPrefix_append (expected rest : Bytes) :
    afterPrefix expected (expected ++ rest) = some rest := by
  simp [afterPrefix, List.isPrefixOf_iff_prefix]

theorem afterPrefix_cons (b : UInt8) (rest : Bytes) : afterPrefix [b] (b :: rest) = some rest :=
  afterPrefix_append [b] rest

theorem IsName.head_ne_slash {name : Bytes} (isName : IsName name) (tail : Bytes) :
    (name ++ tail).head? ≠ some (ascii '/') := by
  obtain ⟨first, more, rfl⟩ := List.exists_cons_of_ne_nil
    (show name ≠ [] by rintro rfl; cases isName.1)
  have start := isName.1
  simp only [List.head?_cons, Option.map_some', Option.some.injEq] at start
  simp only [List.cons_append, List.head?_cons, ne_eq, Option.some.injEq]
  rintro rfl
  revert start
  decide

/-- Text without markup, carriage returns or `]]>` is copied up to a `<` or the
end of the input. -/
theorem parseChars_written {data rest : Bytes}
    (bytes : ∀ b ∈ data, b ≠ ascii '<' ∧ b ≠ ascii '&' ∧ b ≠ 13)
    (stop : rest = [] ∨ rest.head? = some (ascii '<')) :
    ∀ {b0 b1 : UInt8}, b1 ≠ 13 → ¬ [ascii ']', ascii ']', ascii '>'] <:+: b0 :: b1 :: data →
      parseChars b0 b1 (data ++ rest) = some (data, rest) := by
  induction data with
  | nil =>
      intro b0 b1 _ _
      rcases stop with rfl | opens
      · simp [parseChars]
      · obtain ⟨b, tail, rfl⟩ :=
          List.exists_cons_of_ne_nil (show rest ≠ [] by rintro rfl; cases opens)
        obtain rfl : b = ascii '<' := Option.some.inj opens
        have different : ascii '<' ≠ ascii '>' := by decide
        simp [parseChars, different]
  | cons b data ih =>
      intro b0 b1 notReturn noEnd
      obtain ⟨notOpen, notReference, notReturn'⟩ := bytes b (List.mem_cons_self _ _)
      have noEnd' : ¬ (b0 = ascii ']' ∧ b1 = ascii ']' ∧ b = ascii '>') := by
        rintro ⟨rfl, rfl, rfl⟩
        exact noEnd (List.prefix_append _ _).isInfix
      rw [List.cons_append, parseChars, if_neg noEnd', if_neg notOpen, if_neg notReference,
        if_neg notReturn', if_neg (fun crlf => notReturn crlf.1),
        ih (fun b mem => bytes b (List.mem_cons_of_mem _ mem)) notReturn'
          (fun inside => noEnd (List.infix_cons inside))]
      rfl

theorem parseText_written {data rest : Bytes} (written : AsWritten data)
    (stop : rest = [] ∨ rest.head? = some (ascii '<')) :
    parseText (data ++ rest) = some (data, rest) := by
  have bytes : ∀ b ∈ data, b ≠ ascii '<' ∧ b ≠ ascii '&' ∧ b ≠ 13 := fun b mem =>
    ⟨fun same => written.noOpen (same ▸ mem), fun same => written.noReference (same ▸ mem),
      fun same => written.noReturn (same ▸ mem)⟩
  have noEnd : ¬ [ascii ']', ascii ']', ascii '>'] <:+: 0 :: 0 :: data := by
    simp only [List.infix_cons_iff, List.cons_prefix_cons]
    rintro (⟨⟨⟩, -⟩ | ⟨⟨⟩, -⟩ | inside)
    exact written.noCDataEnd inside
  simp [parseText, parseChars_written bytes stop (by decide) noEnd, written.valid]

/-- `>` outside `]]>`, DEL and multi-byte UTF-8 are read as written. -/
example : parseText (Bytes.ofAscii "a>b" ++ [0x7F, 0xC3, 0xBC]) =
    some (Bytes.ofAscii "a>b" ++ [0x7F, 0xC3, 0xBC], []) := by
  decide

/-- A carriage return is read as a line feed. -/
example : parseText (.ofAscii "a\r\nb\rc<") = some (.ofAscii "a\nb\nc", .ofAscii "<") := by decide

/-- `]]>`, a byte that starts no UTF-8 sequence, and a control character are
refused. -/
example : parseText (.ofAscii "a]]>b") = none ∧ parseText [0x61, 0xFF] = none ∧
    parseText [0x61, 0x01] = none := by
  decide

/-- Valid text inside text read as written is read as written. -/
theorem AsWritten.of_infix {text whole : Bytes} (written : AsWritten whole)
    (valid : validText text = true) (part : text <:+: whole) : AsWritten text :=
  ⟨valid, fun mem => written.noOpen (part.subset mem),
    fun mem => written.noReference (part.subset mem), fun mem => written.noReturn (part.subset mem),
    fun inside => written.noCDataEnd (inside.trans part)⟩

/-- Text read as written, cut at an ASCII byte, leaves two texts read as
written: no sequence runs over the byte. -/
theorem AsWritten.of_append_cons {a b : Bytes} {c : UInt8} (ascii : c.toNat < Unicode.runeSelf)
    (written : AsWritten (a ++ c :: b)) : AsWritten a ∧ AsWritten b := by
  have valid := written.valid
  simp only [validText, Unicode.runes_append_ascii a ascii b, List.all_append, List.all_cons,
    Bool.and_eq_true] at valid
  exact ⟨written.of_infix valid.1 (List.prefix_append _ _).isInfix,
    written.of_infix valid.2.2 ((List.suffix_cons c b).trans (List.suffix_append a _)).isInfix⟩

theorem parseName_plain {name rest : Bytes} (isName : IsName name) :
    parseName (name ++ ascii '>' :: rest) = some (name, ascii '>' :: rest) := by
  have taken : (name ++ ascii '>' :: rest).takeWhile isNameByte = name := by
    rw [List.takeWhile_append_of_pos isName.2]
    simp [List.takeWhile_cons, show isNameByte (ascii '>') = false by decide]
  simp [parseName, taken, isName.1]

theorem Node.renderAll_append (nodes nodes' : List Node) :
    Node.renderAll (nodes ++ nodes') = Node.renderAll nodes ++ Node.renderAll nodes' := by
  induction nodes with
  | nil => rfl
  | cons node nodes ih => simp [ih]

/-- After content that is not text, what follows is `<` or nothing. -/
theorem renderAll_stop {nodes : List Node} (plain : Plain nodes)
    (next : ∀ node ∈ nodes.head?, node.isText = false) {rest : Bytes} (ends : EndsContent rest) :
    Node.renderAll nodes ++ rest = [] ∨ (Node.renderAll nodes ++ rest).head? = some (ascii '<') := by
  cases plain with
  | nil =>
      rcases ends with rfl | ⟨tail, rfl⟩
      exacts [.inl rfl, .inr rfl]
  | text => simp [Node.isText] at next
  | element => exact .inr (by simp [startTag])

theorem parseContent_renderAll {fuel : Nat} {nodes : List Node} (plain : Plain nodes)
    {rest : Bytes} (ends : EndsContent rest) (enough : (Node.renderAll nodes ++ rest).length < fuel) :
    parseContent fuel (Node.renderAll nodes ++ rest) = some (nodes, rest) := by
  induction fuel generalizing nodes rest with
  | zero => omega
  | succ fuel ih =>
      cases plain with
      | nil =>
          rcases ends with rfl | ⟨tail, rfl⟩
          · rfl
          · simp [parseContent]
      | @text data nodes nonempty written next rest' =>
          obtain ⟨b, data, rfl⟩ := List.exists_cons_of_ne_nil nonempty
          have notOpen : b ≠ ascii '<' := fun same => written.noOpen (same ▸ List.mem_cons_self _ _)
          have stop := renderAll_stop rest' next ends
          have after := ih rest' ends (by simp at enough ⊢; omega)
          simp only [Node.renderAll_cons, Node.render_text, List.append_assoc, List.cons_append]
          rw [parseContent, if_neg notOpen, ← List.cons_append, parseText_written written stop]
          simp [after]
      | @element name children nodes isName inner rest' =>
          have inside : parseContent fuel
              (Node.renderAll children ++ (endTag name ++ (Node.renderAll nodes ++ rest))) =
              some (children, endTag name ++ (Node.renderAll nodes ++ rest)) :=
            ih inner (.inr ⟨_, rfl⟩) (by simp [startTag] at enough ⊢; omega)
          have after := ih rest' ends (by simp [startTag, endTag] at enough ⊢; omega)
          simp only [Node.renderAll_cons, Node.render_element, startTag, List.cons_append,
            List.append_assoc, List.nil_append]
          rw [parseContent, if_pos rfl, if_neg (isName.head_ne_slash _), parseName_plain isName]
          simp only [Option.bind_eq_bind, Option.some_bind, afterPrefix_cons, inside,
            afterPrefix_append, after]
          rfl

/-- A document of one element reads back as that element. -/
theorem parse_render {name : Bytes} {children : List Node} (isName : IsName name)
    (inner : Plain children) :
    parse (Node.element name children).render = some (.element name children) := by
  have read : parseContent ((Node.element name children).render.length + 1)
      (Node.renderAll [.element name children] ++ []) = some ([.element name children], []) :=
    parseContent_renderAll (.element isName inner .nil) (.inl rfl) (by simp)
  rw [Node.renderAll_cons, Node.renderAll_nil, List.append_nil, List.append_nil] at read
  unfold parse
  rw [read]

end GatewayMt.Xml
