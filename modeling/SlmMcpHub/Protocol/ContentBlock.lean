import SlmMcpHub.Protocol.Models

/-!
# Content blocks

`protocol/conversion.py`, between the content blocks of the SDK and the dictionaries the hub hands
on. The SDK builds a block only from strings, and so a block is a record of strings. What the
conversion neither reads nor sets (titles, sizes, annotations) does not occur.

## Main definitions

* `ContentBlock`, `ResourceContents` — the unions of the SDK
* `sdkContentBlockToDict`, `dictToSdkContentBlock` — the conversion and the way back
* `sdkCallToolResultToOutcome`, `callToolOutcomeToSdk` — the same for the result of a tool

## Main results

* `dictToSdkContentBlock_sdkContentBlockToDict` — what comes back
* `relays_iff` — when nothing of the dictionary is lost
-/

namespace SlmMcpHub

namespace Protocol.Conversion

/-- `TextResourceContents` and `BlobResourceContents` -/
inductive ResourceContents where
  | text (uri text : String) (mimeType : Option String)
  | blob (uri blob : String) (mimeType : Option String)
  deriving DecidableEq

/-- `ContentBlock` -/
inductive ContentBlock where
  /-- `TextContent` -/
  | text (text : String)
  /-- `ImageContent` -/
  | image (data mimeType : String)
  /-- `AudioContent` -/
  | audio (data mimeType : String)
  /-- `ResourceLink` -/
  | resourceLink (uri name : String) (description mimeType : Option String)
  /-- `EmbeddedResource` -/
  | resource (contents : ResourceContents)
  deriving DecidableEq

/-! ### From the SDK -/

/-- `if value is not None: d[key] = value` -/
def setSome (d : Dict String Json) (key : String) (value : Option String) : Dict String Json :=
  value.elim d fun s => d.set key (.str s)

/-- The dictionary of the contents of a resource, a part of `sdk_content_block_to_dict`. -/
def resourceContentsToDict : ResourceContents → Dict String Json
  | .text uri text mimeType =>
    setSome (Json.toDict [("uri", .str uri), ("text", .str text)]) "mimeType" mimeType
  | .blob uri blob mimeType =>
    setSome (Json.toDict [("uri", .str uri), ("blob", .str blob)]) "mimeType" mimeType

/-- `sdk_content_block_to_dict` -/
def sdkContentBlockToDict : ContentBlock → Dict String Json
  | .text text => Json.toDict [("type", .str "text"), ("text", .str text)]
  | .image data mimeType =>
    Json.toDict [("type", .str "image"), ("data", .str data), ("mimeType", .str mimeType)]
  | .audio data mimeType =>
    Json.toDict [("type", .str "audio"), ("data", .str data), ("mimeType", .str mimeType)]
  | .resourceLink uri name description mimeType =>
    setSome (setSome
      (Json.toDict [("type", .str "resource_link"), ("uri", .str uri), ("name", .str name)])
      "description" description) "mimeType" mimeType
  | .resource contents =>
    Json.toDict [("type", .str "resource"), ("resource", ofDict (resourceContentsToDict contents))]

/-! ### To the SDK -/

/-- `d[key]` -/
def item (d : Dict String Json) (key : String) : Result Json :=
  match d.get? key with
  | some v => .ok v
  | none => .error (.exception "KeyError")

/-- The SDK takes a string for a field, and nothing else. -/
def validStr : Json → Result String
  | .str s => .ok s
  | _ => .error (.exception "ValidationError")

/-- An optional field may be `None` as well. -/
def validOptional : Json → Result (Option String)
  | .null => .ok none
  | v => some <$> validStr v

/-- `_dict_to_embedded_resource`, and `_dict_to_resource_contents`, which builds the same
contents -/
def dictToResourceContents (d : Dict String Json) : Result ResourceContents :=
  let uri := (d.get? "uri").getD (.str "")
  let mime := (d.get? "mimeType").getD .null
  match d.get? "text", d.get? "blob" with
  | some text, _ => do pure (.text (← validStr uri) (← validStr text) (← validOptional mime))
  | none, some blob => do pure (.blob (← validStr uri) (← validStr blob) (← validOptional mime))
  | none, none => .error (.exception "ValueError")

/-- Contents that are no dictionary have no `get`. -/
def asDict : Json → Result (Dict String Json)
  | .obj entries => .ok (Json.toDict entries)
  | _ => .error (.exception "AttributeError")

/-- `dict_to_sdk_content_block` -/
def dictToSdkContentBlock (d : Dict String Json) : Result ContentBlock :=
  match d.get? "type" with
  | some (.str "text") => do
    let text ← item d "text"
    pure (.text (← validStr text))
  | some (.str "image") => do
    let data ← item d "data"
    let mimeType ← item d "mimeType"
    pure (.image (← validStr data) (← validStr mimeType))
  | some (.str "audio") => do
    let data ← item d "data"
    let mimeType ← item d "mimeType"
    pure (.audio (← validStr data) (← validStr mimeType))
  -- Of a link, only the address and the name are read.
  | some (.str "resource_link") => do
    let uri ← item d "uri"
    let name ← item d "name"
    pure (.resourceLink (← validStr uri) (← validStr name) none none)
  | some (.str "resource") => do
    let contents ← dictToResourceContents (← asDict (← item d "resource"))
    pure (.resource contents)
  | _ => .error (.exception "ValueError")

/-! ### There and back -/

theorem dictToResourceContents_resourceContentsToDict (contents : ResourceContents) :
    dictToResourceContents (resourceContentsToDict contents) = .ok contents := by
  cases contents with
  | text uri text mimeType => cases mimeType <;> rfl
  | blob uri blob mimeType => cases mimeType <;> rfl

namespace ContentBlock

/-- A block without what is only said of a link. -/
def bare : ContentBlock → ContentBlock
  | .resourceLink uri name _ _ => .resourceLink uri name none none
  | b => b

/-- The dictionary of a block, turned back into a block, is the dictionary of what comes back. -/
def Relays (b : ContentBlock) : Prop :=
  (dictToSdkContentBlock (sdkContentBlockToDict b)).map sdkContentBlockToDict =
    .ok (sdkContentBlockToDict b)

/-- A link that says what it leads to. -/
def Described : ContentBlock → Prop
  | .resourceLink _ _ description mimeType => description.isSome ∨ mimeType.isSome
  | _ => False

instance : DecidablePred Described
  | .resourceLink _ _ _ _ => inferInstanceAs (Decidable (_ ∨ _))
  | .text _ | .image _ _ | .audio _ _ | .resource _ => inferInstanceAs (Decidable False)

end ContentBlock

/-- **What comes back.** Every dictionary of a block is accepted, and turned into the block without
what is only said of a link. -/
theorem dictToSdkContentBlock_sdkContentBlockToDict (b : ContentBlock) :
    dictToSdkContentBlock (sdkContentBlockToDict b) = .ok b.bare := by
  cases b with
  | text text => rfl
  | image data mimeType => rfl
  | audio data mimeType => rfl
  | resourceLink uri name description mimeType => cases description <;> cases mimeType <;> rfl
  | resource contents =>
    have hcontents :
        dictToResourceContents (Json.toDict (resourceContentsToDict contents).entries) =
          .ok contents := by
      rw [toDict_ofDict, dictToResourceContents_resourceContentsToDict]
    calc dictToSdkContentBlock (sdkContentBlockToDict (.resource contents))
        = (dictToResourceContents (Json.toDict (resourceContentsToDict contents).entries) >>=
            fun c => pure (.resource c)) := rfl
      _ = .ok (.resource contents) := by rw [hcontents]; rfl

/-- What is said of a link is in its dictionary. -/
theorem sdkContentBlockToDict_bare_iff (b : ContentBlock) :
    sdkContentBlockToDict b.bare = sdkContentBlockToDict b ↔ ¬ b.Described := by
  constructor
  · intro h hdescribed
    cases b with
    | resourceLink uri name description mimeType =>
      have hget := fun key => congrArg (Dict.get? · key) h
      rcases hdescribed with hdescription | hmime
      · obtain ⟨s, rfl⟩ := Option.isSome_iff_exists.mp hdescription
        have := hget "description"
        cases mimeType <;> cases this
      · obtain ⟨s, rfl⟩ := Option.isSome_iff_exists.mp hmime
        have := hget "mimeType"
        cases description <;> cases this
    | _ => exact hdescribed
  · intro hplain
    cases b with
    | resourceLink uri name description mimeType =>
      obtain ⟨hdescription, hmime⟩ := not_or.mp hplain
      rw [Option.not_isSome_iff_eq_none] at hdescription hmime
      rw [hdescription, hmime]
      rfl
    | _ => rfl

/-- **When nothing is lost.** The dictionary of a block comes through the SDK and back as it was
just when the block is no link with a description or a media type. -/
theorem relays_iff (b : ContentBlock) : b.Relays ↔ ¬ b.Described := by
  rw [ContentBlock.Relays, dictToSdkContentBlock_sdkContentBlockToDict, Except.map, Except.ok.injEq]
  exact sdkContentBlockToDict_bare_iff b

/-- A link with a description comes back without it. -/
theorem not_relays : ¬ ∀ b : ContentBlock, b.Relays := by
  intro h
  have hrelays := h (.resourceLink "file:///a" "a" (some "the first file") none)
  rw [ContentBlock.Relays, dictToSdkContentBlock_sdkContentBlockToDict, Except.map, Except.ok.injEq]
    at hrelays
  have hdescription := congrArg (Dict.get? · "description") hrelays
  cases hdescription

/-! ### The result of a tool -/

/-- `CallToolResult` -/
structure CallToolResult where
  content : List ContentBlock
  isError : Bool
  deriving DecidableEq

/-- `sdk_call_tool_result_to_outcome` -/
def sdkCallToolResultToOutcome (result : CallToolResult) (serverName : String) :
    CallToolOutcome where
  content := result.content.map fun b => ofDict (sdkContentBlockToDict b)
  isError := result.isError
  serverName := serverName

/-- `call_tool_outcome_to_sdk` -/
def callToolOutcomeToSdk (outcome : CallToolOutcome) : Result CallToolResult := do
  let content ← outcome.content.mapM fun d => do dictToSdkContentBlock (← asDict d)
  pure ⟨content, outcome.isError⟩

/-- The result of a tool goes through the hub block by block: none is dropped, none is moved, and
none is refused. -/
theorem callToolOutcomeToSdk_sdkCallToolResultToOutcome (result : CallToolResult)
    (serverName : String) :
    callToolOutcomeToSdk (sdkCallToolResultToOutcome result serverName) =
      .ok ⟨result.content.map ContentBlock.bare, result.isError⟩ := by
  have hblock : ∀ b, (do dictToSdkContentBlock (← asDict (ofDict (sdkContentBlockToDict b)))) =
      (.ok b.bare : Result ContentBlock) := by
    intro b
    calc (do dictToSdkContentBlock (← asDict (ofDict (sdkContentBlockToDict b))))
        = dictToSdkContentBlock (Json.toDict (sdkContentBlockToDict b).entries) := rfl
      _ = .ok b.bare := by rw [toDict_ofDict, dictToSdkContentBlock_sdkContentBlockToDict]
  have hcontent : ∀ l : List ContentBlock,
      (l.map fun b => ofDict (sdkContentBlockToDict b)).mapM
        (fun d => do dictToSdkContentBlock (← asDict d)) =
          (.ok (l.map ContentBlock.bare) : Result _) := by
    intro l
    induction l with
    | nil => rfl
    | cons b l ih =>
      rw [List.map_cons, List.mapM_cons, hblock, ih]
      rfl
  rw [callToolOutcomeToSdk, sdkCallToolResultToOutcome, hcontent]
  rfl

end Protocol.Conversion

end SlmMcpHub
