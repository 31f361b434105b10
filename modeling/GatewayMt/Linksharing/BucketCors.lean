import GatewayMt.Xml

/-!
# The body of `GetBucketCorsHandler`

`cmdRun` splits the `cors-origins` setting at every `,`, and the linksharing
handler for `GetBucketCors` writes one `AllowedOrigin` element for each origin,
copying the origin in with `%s`, then the allowed methods and headers.  The
body is the rendering of one tree over the origins, so when each origin is
text an XML parser reads as written, a reader gets back a single `CORSRule`
with the configured origins.  An origin that holds markup is written as
markup, and two different lists of origins can then share a body.
-/

namespace GatewayMt.Linksharing

open Xml

/-- `strings.Split(runCfg.CorsOrigins, ",")` in `cmdRun`. -/
def corsAllowedOrigins (corsOrigins : Bytes) : List Bytes := corsOrigins.splitOn (ascii ',')

/-- `allowedMethods` of `GetBucketCorsHandler`. -/
def allowedMethods : List Bytes :=
  [.ofAscii "GET", .ofAscii "PUT", .ofAscii "HEAD", .ofAscii "POST", .ofAscii "DELETE",
    .ofAscii "OPTIONS", .ofAscii "PATCH"]

/-- The bytes `GetBucketCorsHandler` builds in `sb` and passes to
`writeSuccessResponseXML`. -/
def getBucketCorsBody (corsAllowedOrigins : List Bytes) : Bytes :=
  let sb := Bytes.ofAscii "<CORSConfiguration><CORSRule>"
  let sb := corsAllowedOrigins.foldl
    (fun sb o => sb ++ .ofAscii "<AllowedOrigin>" ++ o ++ .ofAscii "</AllowedOrigin>") sb
  let sb := allowedMethods.foldl
    (fun sb o => sb ++ .ofAscii "<AllowedMethod>" ++ o ++ .ofAscii "</AllowedMethod>") sb
  sb ++ .ofAscii ("<AllowedHeader>*</AllowedHeader><ExposeHeader>*</ExposeHeader>" ++
    "</CORSRule></CORSConfiguration>")

/-! ## The document the body writes -/

/-- An element whose text is `value`. -/
def field (name value : Bytes) : Node := .element name (if value = [] then [] else [.text value])

def corsDocument (origins : List Bytes) : Node :=
  .element (.ofAscii "CORSConfiguration") [.element (.ofAscii "CORSRule")
    (origins.map (field (.ofAscii "AllowedOrigin")) ++
      allowedMethods.map (field (.ofAscii "AllowedMethod")) ++
      [field (.ofAscii "AllowedHeader") (.ofAscii "*"), field (.ofAscii "ExposeHeader") (.ofAscii "*")])]

/-- The text of content, as a decoder collects it into a string. -/
def textContent : List Node → Bytes
  | [] => []
  | .text data :: nodes => data ++ textContent nodes
  | .element _ _ :: nodes => textContent nodes

/-- The value of an `AllowedOrigin` element. -/
def originOf : Node → Option Bytes
  | .element name content => if name = .ofAscii "AllowedOrigin" then some (textContent content) else none
  | .text _ => none

/-- The `AllowedOrigin` values of a `CORSConfiguration` with a single `CORSRule`. -/
def ruleOrigins : Node → Option (List Bytes)
  | .element config [.element rule children] =>
      if config = .ofAscii "CORSConfiguration" ∧ rule = .ofAscii "CORSRule" then
        some (children.filterMap originOf)
      else none
  | _ => none

/-- Origins that an XML reader reads as written. -/
def Verbatim (origins : List Bytes) : Prop := ∀ origin ∈ origins, AsWritten origin

instance : DecidablePred Verbatim := fun _ => inferInstanceAs (Decidable (∀ _ ∈ _, _))

theorem render_field (name value : Bytes) :
    (field name value).render = startTag name ++ value ++ endTag name := by
  unfold field
  split <;> simp [*]

theorem foldl_fields (name : Bytes) (values : List Bytes) (sb : Bytes) :
    values.foldl (fun sb o => sb ++ startTag name ++ o ++ endTag name) sb =
      sb ++ Node.renderAll (values.map (field name)) := by
  induction values generalizing sb with
  | nil => simp
  | cons value values ih =>
      rw [List.foldl_cons, ih, List.map_cons, Node.renderAll_cons, render_field]
      simp only [List.append_assoc]

/-- The handler writes the rendering of `corsDocument`. -/
theorem getBucketCorsBody_eq (origins : List Bytes) :
    getBucketCorsBody origins = (corsDocument origins).render := by
  have origin : Bytes.ofAscii "<AllowedOrigin>" = startTag (.ofAscii "AllowedOrigin") ∧
      Bytes.ofAscii "</AllowedOrigin>" = endTag (.ofAscii "AllowedOrigin") := ⟨rfl, rfl⟩
  have method : Bytes.ofAscii "<AllowedMethod>" = startTag (.ofAscii "AllowedMethod") ∧
      Bytes.ofAscii "</AllowedMethod>" = endTag (.ofAscii "AllowedMethod") := ⟨rfl, rfl⟩
  have opening : Bytes.ofAscii "<CORSConfiguration><CORSRule>" =
      startTag (.ofAscii "CORSConfiguration") ++ startTag (.ofAscii "CORSRule") := rfl
  have closing : Bytes.ofAscii ("<AllowedHeader>*</AllowedHeader><ExposeHeader>*</ExposeHeader>" ++
      "</CORSRule></CORSConfiguration>") =
      Node.renderAll [field (.ofAscii "AllowedHeader") (.ofAscii "*"),
        field (.ofAscii "ExposeHeader") (.ofAscii "*")] ++
      endTag (.ofAscii "CORSRule") ++ endTag (.ofAscii "CORSConfiguration") := by
    decide
  simp only [getBucketCorsBody, origin.1, origin.2, method.1, method.2]
  rw [foldl_fields, foldl_fields, opening, closing]
  simp only [corsDocument, Node.render_element, Node.renderAll_cons, Node.renderAll_nil,
    Node.renderAll_append, List.append_assoc, List.append_nil]

theorem plain_fields {name : Bytes} (isName : IsName name) (values : List Bytes)
    (verbatim : Verbatim values) {nodes : List Node} (rest : Plain nodes) :
    Plain (values.map (field name) ++ nodes) := by
  induction values with
  | nil => exact rest
  | cons value values ih =>
      refine .element isName ?_ (ih fun v mem => verbatim v (List.mem_cons_of_mem _ mem))
      split
      · exact .nil
      · exact .text ‹_› (verbatim value (List.mem_cons_self _ _)) nofun .nil

theorem parse_getBucketCorsBody {origins : List Bytes} (verbatim : Verbatim origins) :
    parse (getBucketCorsBody origins) = some (corsDocument origins) := by
  have methods : Verbatim allowedMethods := by decide
  have names : IsName (.ofAscii "CORSConfiguration") ∧ IsName (.ofAscii "CORSRule") ∧
      IsName (.ofAscii "AllowedOrigin") ∧ IsName (.ofAscii "AllowedMethod") ∧
      IsName (.ofAscii "AllowedHeader") ∧ IsName (.ofAscii "ExposeHeader") := by
    simp only [IsName]
    decide
  have star : Verbatim [.ofAscii "*"] := by decide
  rw [getBucketCorsBody_eq]
  refine parse_render names.1 (.element names.2.1 ?_ .nil)
  rw [List.append_assoc]
  exact plain_fields names.2.2.1 _ verbatim (plain_fields names.2.2.2.1 _ methods
    (plain_fields names.2.2.2.2.1 [.ofAscii "*"] star
      (plain_fields names.2.2.2.2.2 [.ofAscii "*"] star .nil)))

theorem ruleOrigins_corsDocument (origins : List Bytes) :
    ruleOrigins (corsDocument origins) = some origins := by
  have origin : ∀ value, originOf (field (.ofAscii "AllowedOrigin") value) = some value := by
    intro value
    unfold field
    split <;> simp [originOf, textContent, *]
  have others : ∀ {name}, name ≠ .ofAscii "AllowedOrigin" → ∀ value, originOf (field name value) = none :=
    fun other value => by simp [field, originOf, other]
  have method : Bytes.ofAscii "AllowedMethod" ≠ .ofAscii "AllowedOrigin" := by decide
  have header : Bytes.ofAscii "AllowedHeader" ≠ .ofAscii "AllowedOrigin" := by decide
  have expose : Bytes.ofAscii "ExposeHeader" ≠ .ofAscii "AllowedOrigin" := by decide
  simp [corsDocument, ruleOrigins, List.filterMap_append, List.filterMap_map, Function.comp_def,
    origin, others method, others header, others expose, allowedMethods]

/-- The pieces of a text read as written, joined at an ASCII byte, are read as
written. -/
theorem verbatim_of_intercalate {c : UInt8} (ascii : c.toNat < Unicode.runeSelf) :
    ∀ {origins : List Bytes}, AsWritten ([c].intercalate origins) → Verbatim origins
  | [], _ => nofun
  | [origin], written => by
      rw [show [c].intercalate [origin] = origin by simp [List.intercalate]] at written
      exact List.forall_mem_singleton.mpr written
  | origin :: next :: more, written => by
      rw [show [c].intercalate (origin :: next :: more) =
          origin ++ c :: [c].intercalate (next :: more) by simp [List.intercalate]] at written
      obtain ⟨first, rest⟩ := written.of_append_cons ascii
      exact List.forall_mem_cons.mpr ⟨first, verbatim_of_intercalate ascii rest⟩

/-- With origins that an XML parser reads as written, the body is a document
with one `CORSRule` whose origins are the configured ones, so different lists
of such origins give different bodies. -/
theorem getBucketCors_decodes_origins {origins : List Bytes} (verbatim : Verbatim origins) :
    (∃ doc, parse (getBucketCorsBody origins) = some doc ∧ ruleOrigins doc = some origins) ∧
      ∀ origins', Verbatim origins' → getBucketCorsBody origins' = getBucketCorsBody origins →
        origins' = origins := by
  refine ⟨⟨_, parse_getBucketCorsBody verbatim, ruleOrigins_corsDocument origins⟩,
    fun origins' verbatim' same => ?_⟩
  have read := parse_getBucketCorsBody verbatim'
  rw [same, parse_getBucketCorsBody verbatim, Option.some.injEq] at read
  have decoded := congrArg ruleOrigins read
  rwa [ruleOrigins_corsDocument, ruleOrigins_corsDocument, Option.some.injEq, eq_comm] at decoded

theorem getBucketCors_decodes_origins_example :
    Verbatim [.ofAscii "https://example.com",
        Bytes.ofAscii "https://b" ++ [0xC3, 0xBC] ++ Bytes.ofAscii "cher.example", .ofAscii "a>b"] ∧
      ((∃ doc, parse (getBucketCorsBody [.ofAscii "https://example.com",
            Bytes.ofAscii "https://b" ++ [0xC3, 0xBC] ++ Bytes.ofAscii "cher.example",
            .ofAscii "a>b"]) = some doc ∧
          ruleOrigins doc = some [.ofAscii "https://example.com",
            Bytes.ofAscii "https://b" ++ [0xC3, 0xBC] ++ Bytes.ofAscii "cher.example", .ofAscii "a>b"]) ∧
        ∀ origins', Verbatim origins' →
          getBucketCorsBody origins' = getBucketCorsBody [.ofAscii "https://example.com",
            Bytes.ofAscii "https://b" ++ [0xC3, 0xBC] ++ Bytes.ofAscii "cher.example", .ofAscii "a>b"] →
            origins' = [.ofAscii "https://example.com",
              Bytes.ofAscii "https://b" ++ [0xC3, 0xBC] ++ Bytes.ofAscii "cher.example",
              .ofAscii "a>b"]) :=
  ⟨by decide, getBucketCors_decodes_origins (by decide)⟩

/-- An origin holding a closing and an opening tag writes the body of two
origins, and is read back as those two. -/
theorem getBucketCors_markup_origin_splits :
    getBucketCorsBody [.ofAscii "x</AllowedOrigin><AllowedOrigin>y"] =
        getBucketCorsBody [.ofAscii "x", .ofAscii "y"] ∧
      (parse (getBucketCorsBody [.ofAscii "x</AllowedOrigin><AllowedOrigin>y"])).bind ruleOrigins =
        some [.ofAscii "x", .ofAscii "y"] := by
  have same : getBucketCorsBody [.ofAscii "x</AllowedOrigin><AllowedOrigin>y"] =
      getBucketCorsBody [.ofAscii "x", .ofAscii "y"] := rfl
  refine ⟨same, ?_⟩
  rw [same, parse_getBucketCorsBody (by decide), Option.some_bind, ruleOrigins_corsDocument]

/-- For a `cors-origins` setting that an XML parser reads as written, commas
apart, the body reads back as the origins `cmdRun` splits from the setting,
and joining those with `,` gives the setting back. -/
theorem getBucketCors_reads_back_setting {corsOrigins : Bytes} (written : AsWritten corsOrigins) :
    (parse (getBucketCorsBody (corsAllowedOrigins corsOrigins))).bind ruleOrigins =
        some (corsAllowedOrigins corsOrigins) ∧
      [ascii ','].intercalate (corsAllowedOrigins corsOrigins) = corsOrigins := by
  have joined := List.intercalate_splitOn corsOrigins (ascii ',')
  have verbatim : Verbatim (corsAllowedOrigins corsOrigins) :=
    verbatim_of_intercalate (show (ascii ',').toNat < Unicode.runeSelf by decide)
      (by rw [corsAllowedOrigins, joined]; exact written)
  refine ⟨?_, joined⟩
  rw [parse_getBucketCorsBody verbatim, Option.some_bind, ruleOrigins_corsDocument]

theorem getBucketCors_reads_back_two_origins :
    AsWritten (Bytes.ofAscii "https://a.example,https://b" ++ [0xC3, 0xBC] ++ Bytes.ofAscii "cher.example") ∧
      ((parse (getBucketCorsBody (corsAllowedOrigins
          (Bytes.ofAscii "https://a.example,https://b" ++ [0xC3, 0xBC] ++ Bytes.ofAscii "cher.example")))).bind
          ruleOrigins = some (corsAllowedOrigins
            (Bytes.ofAscii "https://a.example,https://b" ++ [0xC3, 0xBC] ++ Bytes.ofAscii "cher.example")) ∧
        [ascii ','].intercalate (corsAllowedOrigins
            (Bytes.ofAscii "https://a.example,https://b" ++ [0xC3, 0xBC] ++ Bytes.ofAscii "cher.example")) =
          Bytes.ofAscii "https://a.example,https://b" ++ [0xC3, 0xBC] ++ Bytes.ofAscii "cher.example") :=
  ⟨by decide, getBucketCors_reads_back_setting (by decide)⟩

end GatewayMt.Linksharing
