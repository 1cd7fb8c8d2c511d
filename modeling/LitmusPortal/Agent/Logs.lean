import LitmusPortal.Agent.Dispatch
import LitmusPortal.Agent.RoundTrip
import LitmusPortal.Lib.Json.Requoted

/-!
# The logs of a pod

`CreatePodLog` quotes the text of each log before `GenerateLogPayload` writes the logs into the mutation `podLog` with
`MarshalGQLData`. The quoting takes the place of the escapes that the way through the query takes off.
-/

namespace LitmusPortal.Agent

open GoText GoJson

structure PodLog where
  mainPod : Text
  chaosPod : Option (GoMap Text)

/-- `GetLogs`: what the cluster answers for a pod, a namespace and a container. -/
abbrev LogSource := Text → Text → Text → Option Text

/-- `strings.Replace` of the quotes in a log. -/
def apostrophes (log : Text) : Text := replaceAll log (ofString "\"") (ofString "'")

/-- A log as `CreatePodLog` stores it: quoted, without the outer quotes. -/
def quoteLog (isPrint : Char → Bool) (log : Text) : Text := ((quote isPrint (apostrophes log)).drop 1).dropLast

/-- `chaosLog[pod]`, where there is such a pod and it has a log. -/
def addLog (store : Text → Text) (getLogs : LogSource) (chaosNamespace : Text) (pod : Option Text)
    (chaosLog : GoMap Text) : GoMap Text :=
  match pod with
  | none => chaosLog
  | some pod =>
      match getLogs pod chaosNamespace [] with
      | none => chaosLog
      | some log => chaosLog.insert pod (store log)

/-- `CreatePodLog`, with what is stored of the text of a log. -/
def createPodLog (store : Text → Text) (getLogs : LogSource) (podLog : PodLogRequest) : PodLog where
  mainPod :=
    match getLogs podLog.podName podLog.podNamespace (ofString "main") with
    | none => ofString "Failed to get argo pod logs"
    | some mainLog => store mainLog
  chaosPod :=
    match podLog.chaosNamespace with
    | none => none
    | some chaosNamespace =>
        if lower podLog.podType = ofString "chaosengine" then
          if podLog.expPod = none ∧ podLog.runnerPod = none then none
          else some (addLog store getLogs chaosNamespace podLog.runnerPod
            (addLog store getLogs chaosNamespace podLog.expPod ∅))
        else none

def PodLog.encode (logDetails : PodLog) : Json :=
  .obj
    [field "mainLogs" (.str logDetails.mainPod),
      field "chaosLogs" (encodeMap Json.str logDetails.chaosPod)]

/-- `CreatePodLog` and the encoding never fail, so the text for that case is never sent. -/
def generateLogPayload (isPrint : Char → Bool) (getLogs : LogSource) (identity : Identity) (podLog : PodLogRequest) :
    Text :=
  let clusterID := ofString "\x7bclusterID: \\\"" ++ identity.cid ++ ofString "\\\", version: \\\"" ++
    identity.version ++ ofString "\\\", accessKey: \\\"" ++ identity.accessKey ++ ofString "\\\"\x7d"
  let logDetails := createPodLog (quoteLog isPrint) getLogs podLog
  let processed := marshalGQLData isPrint logDetails.encode
  let mutation := ofString "\x7b clusterID: " ++ clusterID ++ ofString ", requestID:\\\"" ++ podLog.requestID ++
    ofString "\\\", workflowRunID: \\\"" ++ podLog.workflowRunID ++ ofString "\\\", podName: \\\"" ++
    podLog.podName ++ ofString "\\\", podType: \\\"" ++ podLog.podType ++ ofString "\\\", log:\\\"" ++
    (processed.drop 1).dropLast ++ ofString "\\\"\x7d"
  ofString "\x7b\"query\":\"mutation \x7b podLog(request:" ++ mutation ++ ofString " )\x7d\"\x7d"

/-! ## The reading side -/

/-- The arguments of the mutation, and the logs that the JSON in the argument `log` says. -/
structure CarriesLogs (identity : Identity) (podLog : PodLogRequest) (logs : PodLog)
    (fields : List (String × GraphQL.Value)) : Prop where
  clusterID : fields.lookup "clusterID" = some (.object [("clusterID", .string identity.cid),
    ("version", .string identity.version), ("accessKey", .string identity.accessKey)])
  requestID : fields.lookup "requestID" = some (.string podLog.requestID)
  workflowRunID : fields.lookup "workflowRunID" = some (.string podLog.workflowRunID)
  podName : fields.lookup "podName" = some (.string podLog.podName)
  podType : fields.lookup "podType" = some (.string podLog.podType)
  log : ∃ data, fields.lookup "log" = some (.string data) ∧ parse data = some logs.encode

def podLogOperation (fields : List (String × GraphQL.Value)) : GraphQL.Operation :=
  ⟨.mutation, none, [.field none "podLog" [("request", .object fields)] []]⟩

/-- The logs come to the server with apostrophes for their quotes, and otherwise as they are. -/
def LogsRoundTrip (isPrint : Char → Bool) (getLogs : LogSource) (identity : Identity) (podLog : PodLogRequest) : Prop :=
  ∃ query fields,
    serverQuery (generateLogPayload isPrint getLogs identity podLog) = some query ∧
    GraphQL.parse query = some (podLogOperation fields) ∧
    CarriesLogs identity podLog (createPodLog apostrophes getLogs podLog) fields

/-! ## The logs in the JSON -/

/-- A character that quoting leaves as it is. -/
def Kept (isPrint : Char → Bool) (r : Rune) : Prop := Shown r ∧ ∀ c, r = .char c → isPrint c = true

/-- What stands in the text of the mutation as it is. -/
structure ShownRequest (isPrint : Char → Bool) (identity : Identity) (podLog : PodLogRequest) : Prop where
  cid : ∀ r ∈ identity.cid, Shown r
  version : ∀ r ∈ identity.version, Shown r
  accessKey : ∀ r ∈ identity.accessKey, Shown r
  requestID : ∀ r ∈ podLog.requestID, Shown r
  workflowRunID : ∀ r ∈ podLog.workflowRunID, Shown r
  podName : ∀ r ∈ podLog.podName, Shown r
  podType : ∀ r ∈ podLog.podType, Shown r
  expPod : ∀ pod ∈ podLog.expPod, ∀ r ∈ pod, Kept isPrint r
  runnerPod : ∀ pod ∈ podLog.runnerPod, ∀ r ∈ pod, Kept isPrint r

/-- Go prints the letters, digits and signs of ASCII. -/
def PrintsASCII (isPrint : Char → Bool) : Prop := ∀ c, ' ' ≤ c → c ≤ '~' → isPrint c = true

variable {isPrint : Char → Bool} {getLogs : LogSource} {identity : Identity} {podLog : PodLogRequest}

theorem quoteRune_of_kept {r : Rune} (h : Kept isPrint r) : quoteRune isPrint r = [r] := by
  obtain ⟨⟨c, rfl, hquote, hslash, -⟩, hprint⟩ := h
  rw [quoteRune, if_neg (not_or.mpr ⟨hquote, hslash⟩), if_pos (hprint c rfl)]

theorem flatMap_quoteRune_of_kept {text : Text} (h : ∀ r ∈ text, Kept isPrint r) :
    text.flatMap (quoteRune isPrint) = text := by
  induction text with
  | nil => rfl
  | cons r rest ih =>
      rw [List.flatMap_cons, quoteRune_of_kept (h r List.mem_cons_self),
        ih fun r hr => h r (List.mem_cons_of_mem _ hr), List.singleton_append]

/-- The characters of a literal that need no escape. -/
theorem kept_ofChars (hprint : PrintsASCII isPrint) {cs : List Char}
    (h : ∀ c ∈ cs, c ≠ '"' ∧ c ≠ '\\' ∧ ' ' ≤ c ∧ c ≤ '~') : ∀ r ∈ ofChars cs, Kept isPrint r := by
  intro r hr
  obtain ⟨c, hc, rfl⟩ := List.mem_map.mp hr
  obtain ⟨hquote, hslash, hspace, htilde⟩ := h c hc
  refine ⟨⟨c, rfl, hquote, hslash, hspace⟩, fun c' hc' => ?_⟩
  obtain rfl := Rune.char.inj hc'
  exact hprint c hspace htilde

theorem quoteLog_eq (log : Text) : quoteLog isPrint log = (apostrophes log).flatMap (quoteRune isPrint) := by
  rw [quoteLog, quote, List.drop_one, List.tail_cons, List.dropLast_concat]

/-- The entries of a map are those of another one with quoted values, under keys that quoting leaves alone. -/
structure QuotedEntries (isPrint : Char → Bool) (plain quoted : GoMap Text) : Prop where
  entries : quoted.entries = plain.entries.map fun entry => ⟨entry.1, entry.2.flatMap (quoteRune isPrint)⟩
  keys : ∀ entry ∈ plain.entries, ∀ r ∈ entry.1, Kept isPrint r

theorem QuotedEntries.insert {plain quoted : GoMap Text} (h : QuotedEntries isPrint plain quoted) {pod : Text}
    (hpod : ∀ r ∈ pod, Kept isPrint r) (log : Text) :
    QuotedEntries isPrint (plain.insert pod (apostrophes log)) (quoted.insert pod (quoteLog isPrint log)) where
  entries := by
    have herase : List.kerase pod (plain.entries.map fun entry =>
          (⟨entry.1, entry.2.flatMap (quoteRune isPrint)⟩ : Sigma fun _ : Text => Text)) =
        (List.kerase pod plain.entries).map fun entry => ⟨entry.1, entry.2.flatMap (quoteRune isPrint)⟩ :=
      List.eraseP_map ..
    rw [AList.entries_insert, AList.entries_insert, h.entries, List.map_cons, quoteLog_eq, herase]
  keys entry hentry := by
    rw [AList.entries_insert] at hentry
    rcases List.mem_cons.mp hentry with rfl | hold
    · exact hpod
    · exact h.keys entry ((List.kerase_sublist _ _).subset hold)

theorem QuotedEntries.addLog {plain quoted : GoMap Text} (h : QuotedEntries isPrint plain quoted)
    (chaosNamespace : Text) {pod : Option Text} (hpod : ∀ name ∈ pod, ∀ r ∈ name, Kept isPrint r) :
    QuotedEntries isPrint (addLog apostrophes getLogs chaosNamespace pod plain)
      (addLog (quoteLog isPrint) getLogs chaosNamespace pod quoted) := by
  cases pod with
  | none => exact h
  | some pod =>
      unfold Agent.addLog
      dsimp only
      cases getLogs pod chaosNamespace [] with
      | none => exact h
      | some log => exact h.insert (hpod pod rfl) log

theorem QuotedEntries.sortedEntries {plain quoted : GoMap Text} (h : QuotedEntries isPrint plain quoted) :
    quoted.sortedEntries = plain.sortedEntries.map fun entry => (entry.1, entry.2.flatMap (quoteRune isPrint)) := by
  rw [GoMap.sortedEntries, GoMap.sortedEntries, h.entries, List.map_map]
  have hsort := @List.map_mergeSort _ _ _ (fun left right : Text × Text => decide (bytes left.1 ≤ bytes right.1))
    (fun entry : Text × Text => (entry.1, entry.2.flatMap (quoteRune isPrint)))
    (plain.entries.map fun entry => (entry.1, entry.2)) (fun _ _ _ _ => rfl)
  rw [hsort, List.map_map]
  rfl

theorem tokens_obj (members : List (Text × Json)) :
    (Json.obj members).tokens = .lbrace :: (List.intercalate [.comma]
      (members.map fun member => .str member.1 :: .colon :: member.2.tokens) ++ [.rbrace]) := by
  rw [Json.tokens, memberTokens_eq_map]

/-- The tokens of an object are those of another one with quoted strings where the members are. -/
theorem tokens_obj_quoted {plain quoted : List (Text × Json)}
    (h : quoted.map (fun member => Token.str member.1 :: .colon :: member.2.tokens) =
      plain.map fun member => (Token.str member.1 :: .colon :: member.2.tokens).map (Token.quoted isPrint)) :
    (Json.obj quoted).tokens = (Json.obj plain).tokens.map (Token.quoted isPrint) := by
  have hmembers : quoted.map (fun member => Token.str member.1 :: .colon :: member.2.tokens) =
      (plain.map fun member => Token.str member.1 :: .colon :: member.2.tokens).map
        (List.map (Token.quoted isPrint)) := by
    rw [h, List.map_map]
    rfl
  rw [tokens_obj, tokens_obj, hmembers, List.map_cons, List.map_append, map_intercalate]
  rfl

theorem tokens_encodeMap {plain quoted : GoMap Text} (h : QuotedEntries isPrint plain quoted) :
    (encodeMap Json.str (some quoted)).tokens =
      (encodeMap Json.str (some plain)).tokens.map (Token.quoted isPrint) := by
  have hkeys : ∀ entry ∈ plain.sortedEntries, entry.1.flatMap (quoteRune isPrint) = entry.1 := by
    intro entry hentry
    obtain ⟨found, hfound, rfl⟩ := List.mem_map.mp ((sortedEntries_perm plain).subset hentry)
    exact flatMap_quoteRune_of_kept (h.keys found hfound)
  apply tokens_obj_quoted
  rw [h.sortedEntries, List.map_map, List.map_map, List.map_map]
  apply List.map_congr_left
  intro entry hentry
  simp only [Function.comp_apply, Json.tokens, List.map_cons, Token.quoted, List.map_nil, hkeys entry hentry]

/-- The logs as the pod's request stores them are the plain ones with quoted strings. -/
theorem tokens_createPodLog (hprint : PrintsASCII isPrint) (h : ShownRequest isPrint identity podLog) :
    (createPodLog (quoteLog isPrint) getLogs podLog).encode.tokens =
      (createPodLog apostrophes getLogs podLog).encode.tokens.map (Token.quoted isPrint) := by
  have hkept : ∀ cs : List Char, (∀ c ∈ cs, c ≠ '"' ∧ c ≠ '\\' ∧ ' ' ≤ c ∧ c ≤ '~') →
      (ofChars cs).flatMap (quoteRune isPrint) = ofChars cs :=
    fun cs hcs => flatMap_quoteRune_of_kept (kept_ofChars hprint hcs)
  have hmain : (createPodLog (quoteLog isPrint) getLogs podLog).mainPod =
      (createPodLog apostrophes getLogs podLog).mainPod.flatMap (quoteRune isPrint) := by
    unfold createPodLog
    dsimp only
    cases getLogs podLog.podName podLog.podNamespace (ofString "main") with
    | none =>
        have hfailed := hkept "Failed to get argo pod logs".toList (forall_mem_chars (by decide))
        exact hfailed.symm
    | some mainLog => exact quoteLog_eq mainLog
  have hchaos : (encodeMap Json.str (createPodLog (quoteLog isPrint) getLogs podLog).chaosPod).tokens =
      (encodeMap Json.str (createPodLog apostrophes getLogs podLog).chaosPod).tokens.map (Token.quoted isPrint) := by
    unfold createPodLog
    dsimp only
    cases podLog.chaosNamespace with
    | none => rfl
    | some chaosNamespace =>
        dsimp only
        split_ifs with htype hpods
        · rfl
        · have hempty : QuotedEntries isPrint ∅ ∅ := ⟨rfl, fun _ hentry => by cases hentry⟩
          exact tokens_encodeMap ((hempty.addLog chaosNamespace h.expPod).addLog chaosNamespace h.runnerPod)
        · rfl
  have hfirst := hkept "mainLogs".toList (forall_mem_chars (by decide))
  have hsecond := hkept "chaosLogs".toList (forall_mem_chars (by decide))
  apply tokens_obj_quoted
  simp only [field, ofString, List.map_cons, List.map_nil, Token.quoted, hfirst, hsecond, hmain, hchaos, Json.tokens]

/-! ## The text of the mutation -/

def logBody (identity : Identity) (podLog : PodLogRequest) : Text :=
  ofString "mutation \x7b podLog(request:\x7b clusterID: \x7bclusterID: \\\"" ++ identity.cid ++
    ofString "\\\", version: \\\"" ++ identity.version ++ ofString "\\\", accessKey: \\\"" ++ identity.accessKey ++
    ofString "\\\"\x7d, requestID:\\\"" ++ podLog.requestID ++ ofString "\\\", workflowRunID: \\\"" ++
    podLog.workflowRunID ++ ofString "\\\", podName: \\\"" ++ podLog.podName ++ ofString "\\\", podType: \\\"" ++
    podLog.podType ++ ofString "\\\", log:\\\""

def logQuery (identity : Identity) (podLog : PodLogRequest) : Text :=
  ofString "mutation \x7b podLog(request:\x7b clusterID: \x7bclusterID: \"" ++ identity.cid ++
    ofString "\", version: \"" ++ identity.version ++ ofString "\", accessKey: \"" ++ identity.accessKey ++
    ofString "\"\x7d, requestID:\"" ++ podLog.requestID ++ ofString "\", workflowRunID: \"" ++
    podLog.workflowRunID ++ ofString "\", podName: \"" ++ podLog.podName ++ ofString "\", podType: \"" ++
    podLog.podType ++ ofString "\", log:\""

theorem ofString_ofList (cs : List Char) : ofString (String.ofList cs) = ofChars cs := by
  rw [ofString, String.toList_ofList]

theorem readsAs_ofList {cs out : List Char} (h : unescapeQuotes cs = some out) :
    ReadsAs (ofString (String.ofList cs)) (ofString (String.ofList out)) := by
  rw [ofString_ofList, ofString_ofList]
  exact readsAs_of_unescapeQuotes h

theorem generateLogPayload_eq :
    generateLogPayload isPrint getLogs identity podLog =
      ofString "\x7b\"query\":\"" ++ (logBody identity podLog ++
        ((marshal (createPodLog (quoteLog isPrint) getLogs podLog).encode).flatMap (encodeRune isPrint) ++
          ofString "\\\"\x7d )\x7d")) ++ ofString "\"\x7d" := by
  have hhead : ofString "\x7b\"query\":\"mutation \x7b podLog(request:" ++ ofString "\x7b clusterID: " ++
      ofString "\x7bclusterID: \\\"" = ofString "\x7b\"query\":\"" ++
        ofString "mutation \x7b podLog(request:\x7b clusterID: \x7bclusterID: \\\"" := by
    rw [ofString_ofList, ofString_ofList, ofString_ofList, ofString_ofList, ofString_ofList]
    rfl
  have hrequest : ofString "\\\"\x7d" ++ ofString ", requestID:\\\"" = ofString "\\\"\x7d, requestID:\\\"" := by
    rw [ofString_ofList, ofString_ofList, ofString_ofList]
    rfl
  have htail : ofString "\\\"\x7d" ++ ofString " )\x7d\"\x7d" = ofString "\\\"\x7d )\x7d" ++ ofString "\"\x7d" := by
    rw [ofString_ofList, ofString_ofList, ofString_ofList, ofString_ofList]
    rfl
  have hdata : ((marshalGQLData isPrint (createPodLog (quoteLog isPrint) getLogs podLog).encode).drop 1).dropLast =
      (marshal (createPodLog (quoteLog isPrint) getLogs podLog).encode).flatMap (encodeRune isPrint) :=
    marshalGQLData_obj _ _
  simp only [generateLogPayload, logBody, hdata, List.append_assoc, ← hrequest]
  rw [← List.append_assoc (ofString "\x7b clusterID: "), ← List.append_assoc
    (ofString "\x7b\"query\":\"mutation \x7b podLog(request:"), ← List.append_assoc
    (ofString "\x7b\"query\":\"mutation \x7b podLog(request:"), hhead, htail]
  simp only [List.append_assoc]

theorem readsAs_logBody (h : ShownRequest isPrint identity podLog) :
    ReadsAs (logBody identity podLog) (logQuery identity podLog) := by
  unfold logBody logQuery
  refine .append (.append ?_ (.shown h.podType)) (readsAs_ofList rfl)
  refine .append (.append ?_ (.shown h.podName)) (readsAs_ofList rfl)
  refine .append (.append ?_ (.shown h.workflowRunID)) (readsAs_ofList rfl)
  refine .append (.append ?_ (.shown h.requestID)) (readsAs_ofList rfl)
  refine .append (.append ?_ (.shown h.accessKey)) (readsAs_ofList rfl)
  refine .append (.append ?_ (.shown h.version)) (readsAs_ofList rfl)
  refine .append (.append ?_ (.shown h.cid)) (readsAs_ofList rfl)
  exact readsAs_ofList rfl

/-! ## The characters of the logs -/

/-- The characters of the texts in the logs. -/
def PodLog.Shows (logs : PodLog) (r : Rune) : Prop :=
  r ∈ logs.mainPod ∨ ∃ chaosLog ∈ logs.chaosPod, ∃ entry ∈ chaosLog.entries, r ∈ entry.2

theorem runes_obj (members : List (Text × Json)) :
    (Json.obj members).runes = members.flatMap fun member => member.1 ++ member.2.runes := by
  induction members using List.reverseRecOn with
  | nil => rfl
  | append_singleton members last ih =>
      clear ih
      have hfront : (membersRead members).flatMap Token.runes =
          members.flatMap fun member => member.1 ++ member.2.runes := by
        induction members with
        | nil => rfl
        | cons member rest ih =>
            rw [List.flatMap_cons, ← ih]
            simp [membersRead, Json.runes, Token.runes]
      rw [Json.runes, tokens_obj_append, List.flatMap_cons, List.flatMap_append, hfront, List.flatMap_append]
      simp [Json.runes, Token.runes]

theorem mem_runes_encode {logs : PodLog} {r : Rune} (h : r ∈ logs.encode.runes) :
    r ∈ ofString "mainLogs" ∨ r ∈ ofString "chaosLogs" ∨ logs.Shows r ∨
      ∃ chaosLog ∈ logs.chaosPod, ∃ entry ∈ chaosLog.entries, r ∈ entry.1 := by
  rw [PodLog.encode, runes_obj, List.flatMap_cons, List.flatMap_cons, List.flatMap_nil, List.append_nil] at h
  simp only [field, List.mem_append] at h
  rcases h with (hkey | hmain) | hkey | hchaos
  · exact .inl hkey
  · exact .inr (.inr (.inl (.inl (by simpa [Json.runes, Json.tokens, Token.runes] using hmain))))
  · exact .inr (.inl hkey)
  · cases hlogs : logs.chaosPod with
    | none =>
        rw [hlogs] at hchaos
        cases hchaos
    | some chaosLog =>
        rw [hlogs, encodeMap, runes_obj] at hchaos
        obtain ⟨member, hmember, hr⟩ := List.mem_flatMap.mp hchaos
        obtain ⟨entry, hentry, rfl⟩ := List.mem_map.mp hmember
        obtain ⟨found, hfound, rfl⟩ := List.mem_map.mp ((sortedEntries_perm chaosLog).subset hentry)
        rcases List.mem_append.mp hr with hkey | hvalue
        · exact .inr (.inr (.inr ⟨chaosLog, rfl, found, hfound, hkey⟩))
        · refine .inr (.inr (.inl (.inr ⟨chaosLog, hlogs, found, hfound, ?_⟩)))
          simpa [Json.runes, Json.tokens, Token.runes] using hvalue

theorem shows_encode {logs : PodLog} {r : Rune} (h : logs.Shows r) : r ∈ logs.encode.runes := by
  rw [PodLog.encode, runes_obj, List.flatMap_cons, List.flatMap_cons]
  rcases h with hmain | ⟨chaosLog, hlogs, entry, hentry, hr⟩
  · apply List.mem_append_left
    exact List.mem_append_right _ (by simpa [field, Json.runes, Json.tokens, Token.runes] using hmain)
  · apply List.mem_append_right
    apply List.mem_append_left
    apply List.mem_append_right
    rw [Option.mem_def.mp hlogs, field, encodeMap, runes_obj]
    have hsorted : (entry.1, entry.2) ∈ chaosLog.sortedEntries :=
      (sortedEntries_perm chaosLog).symm.subset (List.mem_map.mpr ⟨entry, hentry, rfl⟩)
    refine List.mem_flatMap.mpr ⟨(entry.1, .str entry.2), List.mem_map.mpr ⟨_, hsorted, rfl⟩, ?_⟩
    exact List.mem_append_right _ (by simpa [Json.runes, Json.tokens, Token.runes] using hr)

theorem apostrophes_eq_map (log : Text) :
    apostrophes log = log.map fun r => if r = .char '"' then .char '\'' else r := by
  have hold : ofString "\"" = [.char '"'] := rfl
  have hnew : ofString "'" = [.char '\''] := rfl
  rw [apostrophes, replaceAll, hold, hnew]
  induction log with
  | nil => rfl
  | cons r rest ih =>
      rw [replaceRunes, List.map_cons, ← ih]
      by_cases hquote : r = .char '"'
      · subst hquote
        rfl
      · have hnot : List.isPrefixOf [Rune.char '"'] (r :: rest) = false := by
          simpa [List.isPrefixOf] using Ne.symm hquote
        rw [hnot, if_neg hquote]
        rfl

theorem mem_apostrophes {log : Text} {r : Rune} (h : r ∈ apostrophes log) :
    r ≠ .char '"' ∧ (r = .char '\'' ∨ r ∈ log) := by
  rw [apostrophes_eq_map] at h
  obtain ⟨r', hr', rfl⟩ := List.mem_map.mp h
  split_ifs with hquote
  · exact ⟨by decide, .inl rfl⟩
  · exact ⟨hquote, .inr hr'⟩

theorem not_mem_apostrophes (log : Text) : .char '"' ∉ apostrophes log := fun h => (mem_apostrophes h).1 rfl

theorem addLog_keys {store : Text → Text} {chaosNamespace : Text} {pod : Option Text} {chaosLog : GoMap Text}
    (hpod : ∀ name ∈ pod, ∀ r ∈ name, Kept isPrint r)
    (h : ∀ entry ∈ chaosLog.entries, ∀ r ∈ entry.1, Kept isPrint r) :
    ∀ entry ∈ (addLog store getLogs chaosNamespace pod chaosLog).entries, ∀ r ∈ entry.1, Kept isPrint r := by
  cases pod with
  | none => exact h
  | some pod =>
      unfold addLog
      dsimp only
      cases getLogs pod chaosNamespace [] with
      | none => exact h
      | some log =>
          intro entry hentry
          rw [AList.entries_insert] at hentry
          rcases List.mem_cons.mp hentry with rfl | hold
          · exact hpod pod rfl
          · exact h entry ((List.kerase_sublist _ _).subset hold)

theorem addLog_values {chaosNamespace : Text} {pod : Option Text} {chaosLog : GoMap Text}
    (h : ∀ entry ∈ chaosLog.entries, .char '"' ∉ entry.2) :
    ∀ entry ∈ (addLog apostrophes getLogs chaosNamespace pod chaosLog).entries, .char '"' ∉ entry.2 := by
  cases pod with
  | none => exact h
  | some pod =>
      unfold addLog
      dsimp only
      cases getLogs pod chaosNamespace [] with
      | none => exact h
      | some log =>
          intro entry hentry
          rw [AList.entries_insert] at hentry
          rcases List.mem_cons.mp hentry with rfl | hold
          · exact not_mem_apostrophes log
          · exact h entry ((List.kerase_sublist _ _).subset hold)

/-- What stands in the map of the chaos logs. -/
theorem chaosPod_cases {store : Text → Text} {chaosLog : GoMap Text}
    (h : (createPodLog store getLogs podLog).chaosPod = some chaosLog) :
    ∃ chaosNamespace, chaosLog = addLog store getLogs chaosNamespace podLog.runnerPod
      (addLog store getLogs chaosNamespace podLog.expPod ∅) := by
  unfold createPodLog at h
  dsimp only at h
  split at h
  · cases h
  · rename_i chaosNamespace _
    split_ifs at h
    exact ⟨chaosNamespace, (Option.some.inj h).symm⟩

theorem kept_or_shows (hprint : PrintsASCII isPrint) (h : ShownRequest isPrint identity podLog) {r : Rune}
    (hr : r ∈ (createPodLog apostrophes getLogs podLog).encode.runes) :
    Kept isPrint r ∨ (createPodLog apostrophes getLogs podLog).Shows r := by
  rcases mem_runes_encode hr with hmain | hchaos | hshows | ⟨chaosLog, hlogs, entry, hentry, hr⟩
  · exact .inl (kept_ofChars hprint (forall_mem_chars (by decide)) r hmain)
  · exact .inl (kept_ofChars hprint (forall_mem_chars (by decide)) r hchaos)
  · exact .inr hshows
  · obtain ⟨chaosNamespace, rfl⟩ := chaosPod_cases hlogs
    exact .inl (addLog_keys h.runnerPod (addLog_keys h.expPod fun _ hnone => by cases hnone) entry hentry r hr)

theorem ne_quote_of_shows {r : Rune} (h : (createPodLog apostrophes getLogs podLog).Shows r) : r ≠ .char '"' := by
  rcases h with hmain | ⟨chaosLog, hlogs, entry, hentry, hr⟩
  · unfold createPodLog at hmain
    dsimp only at hmain
    cases hlog : getLogs podLog.podName podLog.podNamespace (ofString "main") with
    | none =>
        rw [hlog] at hmain
        obtain ⟨c, hc, rfl⟩ := List.mem_map.mp hmain
        have hall : ∀ c ∈ "Failed to get argo pod logs".toList, c ≠ '"' := forall_mem_chars (by decide)
        exact fun heq => hall c hc (Rune.char.inj heq)
    | some mainLog =>
        rw [hlog] at hmain
        rintro rfl
        exact not_mem_apostrophes mainLog hmain
  · obtain ⟨chaosNamespace, rfl⟩ := chaosPod_cases hlogs
    rintro rfl
    exact addLog_values (addLog_values fun _ hnone => by cases hnone) entry hentry hr

theorem requotable_of_kept {r : Rune} (h : Kept isPrint r) : Requotable isPrint r := by
  obtain ⟨⟨c, rfl, -, -, hspace⟩, hprint⟩ := h
  exact ⟨c, rfl, .inl ⟨hspace, .inl (hprint c rfl)⟩⟩

theorem ne_quote_of_kept {r : Rune} (h : Kept isPrint r) : r ≠ .char '"' := by
  obtain ⟨⟨c, rfl, hquote, -⟩, -⟩ := h
  exact fun heq => hquote (Rune.char.inj heq)

/-! ## The tokens of the query -/

def logTokens (identity : Identity) (podLog : PodLogRequest) : List GraphQL.Token :=
  [.name "mutation", .punct '{', .name "podLog", .punct '(', .name "request", .punct ':', .punct '{',
    .name "clusterID", .punct ':', .punct '{', .name "clusterID", .punct ':', .string identity.cid, .name "version",
    .punct ':', .string identity.version, .name "accessKey", .punct ':', .string identity.accessKey, .punct '}',
    .name "requestID", .punct ':', .string podLog.requestID, .name "workflowRunID", .punct ':',
    .string podLog.workflowRunID, .name "podName", .punct ':', .string podLog.podName, .name "podType", .punct ':',
    .string podLog.podType, .name "log", .punct ':']

def logFields (identity : Identity) (podLog : PodLogRequest) (data : Text) : List (String × GraphQL.Value) :=
  [("clusterID", .object [("clusterID", .string identity.cid), ("version", .string identity.version),
      ("accessKey", .string identity.accessKey)]),
    ("requestID", .string podLog.requestID), ("workflowRunID", .string podLog.workflowRunID),
    ("podName", .string podLog.podName), ("podType", .string podLog.podType), ("log", .string data)]

theorem opens_ofList {cs rest : List Char} {c : Char} {found : List GraphQL.Token} (hcs : cs = '"' :: c :: rest)
    (hc : c ≠ '"')
    (hrun : Transition.run GraphQL.lexStep ⟨[], .idle⟩ (ofChars (c :: rest)) = some ⟨found, .str []⟩) :
    opens (String.ofList cs) = some found := by
  subst hcs
  have hrun' : Transition.run GraphQL.lexStep ⟨[], .idle⟩ (.char c :: List.map Rune.char rest) =
      some ⟨found, .str []⟩ := hrun
  rw [opens, ofString_ofList, ofChars, List.map_cons, List.map_cons]
  simp only [hc, if_false, hrun']

theorem run_logQuery (h : ShownRequest isPrint identity podLog) :
    Transition.run GraphQL.lexStep ⟨[], .idle⟩ (logQuery identity podLog) =
      some ⟨(logTokens identity podLog).reverse, .str []⟩ := by
  have hhead : Transition.run GraphQL.lexStep ⟨[], .idle⟩
      (ofString "mutation \x7b podLog(request:\x7b clusterID: \x7bclusterID: \"") =
        some ⟨[.punct ':', .name "clusterID", .punct '{', .punct ':', .name "clusterID", .punct '{', .punct ':',
          .name "request", .punct '(', .name "podLog", .punct '{', .name "mutation"], .str []⟩ := by
    rw [ofString_ofList]
    rfl
  have hversion : opens "\", version: \"" = some [.punct ':', .name "version"] :=
    opens_ofList rfl (by decide) rfl
  have hkey : opens "\", accessKey: \"" = some [.punct ':', .name "accessKey"] :=
    opens_ofList rfl (by decide) rfl
  have hrequestID : opens "\"\x7d, requestID:\"" = some [.punct ':', .name "requestID", .punct '}'] :=
    opens_ofList rfl (by decide) rfl
  have hrunID : opens "\", workflowRunID: \"" = some [.punct ':', .name "workflowRunID"] :=
    opens_ofList rfl (by decide) rfl
  have hpodName : opens "\", podName: \"" = some [.punct ':', .name "podName"] :=
    opens_ofList rfl (by decide) rfl
  have hpodType : opens "\", podType: \"" = some [.punct ':', .name "podType"] :=
    opens_ofList rfl (by decide) rfl
  have hlog : opens "\", log:\"" = some [.punct ':', .name "log"] := opens_ofList rfl (by decide) rfl
  have hidentity := run_argument (run_argument (run_argument hhead h.cid hversion) h.version hkey) h.accessKey
    hrequestID
  have hids := run_argument (run_argument hidentity h.requestID hrunID) h.workflowRunID hpodName
  exact run_argument (run_argument hids h.podName hpodType) h.podType hlog

theorem parseTokens_log (data : Text) :
    GraphQL.parseTokens (logTokens identity podLog ++ [.string data, .punct '\x7d', .punct ')', .punct '\x7d']) =
      some (podLogOperation (logFields identity podLog data)) := by
  simp [logTokens, GraphQL.parseTokens, GraphQL.parseHead, GraphQL.operationType, parseSelectionSet_brace,
    GraphQL.parseSelection, GraphQL.parseName, GraphQL.parseArguments, GraphQL.parseFields, GraphQL.parseValue,
    parseSelectionSet_end, GraphQL.parseSelections, podLogOperation, logFields]

theorem parse_logQuery (h : ShownRequest isPrint identity podLog) {symbols : List Symbol}
    (hplain : ∀ c, .mark c ∈ symbols → Plain c) (hquote : .content (.char '"') ∉ symbols) :
    GraphQL.parse (logQuery identity podLog ++ (dataText symbols ++ ofString "\"\x7d )\x7d")) =
      some (podLogOperation (logFields identity podLog (symbols.map dataRune))) := by
  have hclose : ofString "\"\x7d )\x7d" = [.char '"', .char '\x7d', .char ' ', .char ')', .char '\x7d'] := by
    rw [ofString_ofList]
    rfl
  have hread := run_symbols hplain hquote (logTokens identity podLog).reverse []
  have hlast : Transition.run GraphQL.lexStep
      ⟨.string (symbols.map dataRune) :: (logTokens identity podLog).reverse, .idle⟩
        [.char '\x7d', .char ' ', .char ')', .char '\x7d'] =
      some ⟨.punct '\x7d' :: .punct ')' :: .punct '\x7d' :: .string (symbols.map dataRune) ::
        (logTokens identity podLog).reverse, .idle⟩ := rfl
  have hlex : GraphQL.lex (logQuery identity podLog ++ (dataText symbols ++ ofString "\"\x7d )\x7d")) =
      some (logTokens identity podLog ++
        [.string (symbols.map dataRune), .punct '\x7d', .punct ')', .punct '\x7d']) := by
    rw [GraphQL.lex, Transition.run_append, run_logQuery h, Option.bind_some, Transition.run_append, hread,
      Option.bind_some, hclose, GraphQL.run_quote (by decide), List.append_nil, List.reverse_reverse, hlast]
    simp [GraphQL.LexState.finish]
  rw [GraphQL.parse, hlex, Option.bind_some, parseTokens_log]

/-! ## The logs read back -/

/-- What the argument `log` is at the server: the JSON of the plain logs, with its strings quoted in place. -/
theorem map_dataRune_quoted {tokens : List Token} (h : ∀ r ∈ tokens.flatMap Token.runes, r ≠ .char '"') :
    ((tokens.map (Token.quoted isPrint)).flatMap Token.symbols).map dataRune =
      render (quoteRune isPrint) (tokens.flatMap Token.symbols) := by
  induction tokens with
  | nil => rfl
  | cons token rest ih =>
      have htoken : ((token.quoted isPrint).symbols).map dataRune = render (quoteRune isPrint) token.symbols := by
        cases token with
        | str s =>
            have hvalid : (s.flatMap (quoteRune isPrint)).map Rune.sanitize = s.flatMap (quoteRune isPrint) := by
              apply (List.map_congr_left fun written hwritten => ?_).trans (List.map_id _)
              obtain ⟨r, hr, hwritten⟩ := List.mem_flatMap.mp hwritten
              obtain ⟨c, rfl, -⟩ := mem_quoteRune (h r (List.mem_append_left _ hr)) hwritten
              rfl
            have hcontents : (s.flatMap (quoteRune isPrint)).map (dataRune ∘ Symbol.content) =
                s.flatMap (quoteRune isPrint) := hvalid
            simp [Token.quoted, Token.symbols, render, Symbol.render, List.flatMap_map, hcontents, dataRune]
        | lit l =>
            have hsymbols : (Token.quoted isPrint (.lit l)).symbols = l.chars.map .mark := rfl
            rw [hsymbols, Token.symbols, List.map_map, render, List.flatMap_map]
            exact List.map_eq_flatMap
        | lbrace | rbrace | lbrack | rbrack | colon | comma => rfl
      have hrest := ih fun r hr => h r (List.mem_append_right _ hr)
      rw [List.map_cons, List.flatMap_cons, List.map_append, htoken, hrest, List.flatMap_cons]
      simp only [render, List.flatMap_append]

theorem runes_quoted {plain quoted : Json} (h : quoted.tokens = plain.tokens.map (Token.quoted isPrint)) {r : Rune}
    (hr : r ∈ quoted.runes) : ∃ r' ∈ plain.runes, r ∈ quoteRune isPrint r' := by
  obtain ⟨token, htoken, hr⟩ := List.mem_flatMap.mp hr
  rw [h] at htoken
  obtain ⟨found, hfound, rfl⟩ := List.mem_map.mp htoken
  cases found with
  | str s =>
      obtain ⟨r', hr', hwritten⟩ := List.mem_flatMap.mp hr
      exact ⟨r', List.mem_flatMap.mpr ⟨.str s, hfound, hr'⟩, hwritten⟩
  | _ => cases hr

/-- The logs of the pods come back exactly when JSON knows the escape with which Go quotes each of their characters. -/
theorem logs_roundTrip_iff (isPrint : Char → Bool) (getLogs : LogSource) (identity : Identity) (podLog : PodLogRequest)
    (hprint : PrintsASCII isPrint) (h : ShownRequest isPrint identity podLog) :
    LogsRoundTrip isPrint getLogs identity podLog ↔
      ∀ r, (createPodLog apostrophes getLogs podLog).Shows r → Requotable isPrint r := by
  have htokens := @tokens_createPodLog isPrint getLogs identity podLog hprint h
  have hplainRunes : ∀ r ∈ (createPodLog apostrophes getLogs podLog).encode.runes, r ≠ .char '"' :=
    fun r hr => (kept_or_shows hprint h hr).elim ne_quote_of_kept ne_quote_of_shows
  have hwritten : ∀ r ∈ (createPodLog (quoteLog isPrint) getLogs podLog).encode.runes,
      ∃ c, r = .char c ∧ c ≠ '"' ∧ (isPrint c = true ∨ c.toNat < 0x10000) := by
    intro r hr
    obtain ⟨r', hr', hquoted⟩ := runes_quoted htokens hr
    exact mem_quoteRune (hplainRunes r' hr') hquoted
  have hquote : .content (.char '"') ∉ (createPodLog (quoteLog isPrint) getLogs podLog).encode.symbols := by
    intro hmem
    obtain ⟨c, hc, hne, -⟩ := hwritten _ (content_mem_symbols_iff.mp hmem)
    exact hne (Rune.char.inj hc).symm
  have hprinted : ∀ r ∈ marshal (createPodLog (quoteLog isPrint) getLogs podLog).encode, Printed isPrint r := by
    apply printed_marshal
    intro c hc
    obtain ⟨c', hc', -, hshown⟩ := hwritten _ hc
    rw [Rune.char.inj hc']
    exact hshown
  have hquery : serverQuery (generateLogPayload isPrint getLogs identity podLog) = some (logQuery identity podLog ++
      (dataText (createPodLog (quoteLog isPrint) getLogs podLog).encode.symbols ++ ofString "\"\x7d )\x7d")) := by
    have hdata := ReadsAs.flatMap fun r hr => readsAs_encodeRune (hprinted r hr)
    have htail : ReadsAs (ofString "\\\"\x7d )\x7d") (ofString "\"\x7d )\x7d") := readsAs_ofList rfl
    rw [generateLogPayload_eq]
    exact serverQuery_of_readsAs ((readsAs_logBody h).append (hdata.append htail))
  have hparse := parse_logQuery h (fun c => plain_of_mark_mem) hquote
  have hdata : (createPodLog (quoteLog isPrint) getLogs podLog).encode.symbols.map dataRune =
      render (quoteRune isPrint) (createPodLog apostrophes getLogs podLog).encode.symbols := by
    rw [Json.symbols, htokens, map_dataRune_quoted hplainRunes, Json.symbols]
  rw [hdata] at hparse
  have hread := parse_render_quoteRune_iff isPrint (createPodLog apostrophes getLogs podLog).encode
  constructor
  · rintro ⟨query, fields, hquery', hparse', hcarries⟩ r hr
    obtain rfl := Option.some.inj (hquery.symm.trans hquery')
    obtain ⟨data, hlookup, hvalue⟩ := hcarries.log
    have hsame : logFields identity podLog
        (render (quoteRune isPrint) (createPodLog apostrophes getLogs podLog).encode.symbols) = fields := by
      have hoperation := Option.some.inj (hparse.symm.trans hparse')
      simpa [podLogOperation] using hoperation
    rw [← hsame] at hlookup
    have hvalue' : render (quoteRune isPrint) (createPodLog apostrophes getLogs podLog).encode.symbols = data :=
      GraphQL.Value.string.inj (Option.some.inj hlookup)
    rw [← hvalue'] at hvalue
    exact hread.mp hvalue r (shows_encode hr)
  · intro hshown
    refine ⟨_, _, hquery, hparse, rfl, rfl, rfl, rfl, rfl, _, rfl, hread.mpr fun r hr => ?_⟩
    exact (kept_or_shows hprint h hr).elim requotable_of_kept (hshown r)

/-- A log with quotes and a line end. -/
def sampleLog : List Char := ['a', ' ', '"', 'p', 'o', 'd', '"', '\n']

def samplePodLog : PodLogRequest where
  requestID := ofChars ['1']
  clusterID := ofChars ['c']
  workflowRunID := ofChars ['2']
  podName := ofChars ['p', 'o', 'd']
  podNamespace := ofChars ['n', 's']
  podType := ofString "ChaosEngine"
  expPod := some (ofChars ['e', 'x', 'p'])
  runnerPod := none
  chaosNamespace := some (ofChars ['n', 's'])

def sampleIdentity : Identity where
  cid := ofChars ['c']
  accessKey := ofChars ['k']
  version := ofChars ['2', '.', '0']

theorem printsASCII_isGraphic : PrintsASCII isGraphic := fun _ hspace htilde => decide_eq_true ⟨hspace, htilde⟩

theorem shownRequest_sample : ShownRequest isGraphic sampleIdentity samplePodLog := by
  have hkept : ∀ cs : List Char, (∀ c ∈ cs, c ≠ '"' ∧ c ≠ '\\' ∧ ' ' ≤ c ∧ c ≤ '~') →
      ∀ r ∈ ofChars cs, Kept isGraphic r := fun cs hcs => kept_ofChars printsASCII_isGraphic hcs
  have hshown : ∀ cs : List Char, (∀ c ∈ cs, c ≠ '"' ∧ c ≠ '\\' ∧ ' ' ≤ c ∧ c ≤ '~') →
      ∀ r ∈ ofChars cs, Shown r := fun cs hcs r hr => (hkept cs hcs r hr).1
  refine ⟨hshown _ ?_, hshown _ ?_, hshown _ ?_, hshown _ ?_, hshown _ ?_, hshown _ ?_, hshown _ ?_, ?_, ?_⟩
  case refine_8 =>
    rintro pod ⟨⟩
    exact hkept _ (forall_mem_chars (by decide))
  case refine_9 => exact fun pod hpod => by cases hpod
  all_goals exact forall_mem_chars (by decide)

def sampleSource : LogSource := fun _ _ _ => some (ofChars sampleLog)

theorem logs_roundTrip_sample : LogsRoundTrip isGraphic sampleSource sampleIdentity samplePodLog := by
  apply (logs_roundTrip_iff isGraphic sampleSource sampleIdentity samplePodLog printsASCII_isGraphic
    shownRequest_sample).mpr
  have hall : ∀ c ∈ sampleLog, ' ' ≤ c ∧ c.toNat < 0x10000 ∨
      c ∈ ['\x08', '\x0c', '\n', '\r', '\t'] ∧ isGraphic c = false := forall_mem_chars (by decide)
  intro r hr
  have hmem : r ∈ apostrophes (ofChars sampleLog) := by
    rcases hr with hmain | ⟨chaosLog, hlogs, entry, hentry, hr⟩
    · exact hmain
    · obtain ⟨chaosNamespace, rfl⟩ := chaosPod_cases hlogs
      obtain rfl := List.mem_singleton.mp hentry
      exact hr
  rcases (mem_apostrophes hmem).2 with rfl | hlog
  · exact ⟨'\'', rfl, .inl ⟨by decide, .inr (by decide)⟩⟩
  · obtain ⟨c, hc, rfl⟩ := List.mem_map.mp hlog
    exact ⟨c, rfl, (hall c hc).imp_left fun hshown => ⟨hshown.1, .inr hshown.2⟩⟩

end LitmusPortal.Agent
