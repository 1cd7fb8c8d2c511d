import LitmusPortal.Cluster.Manifest
import LitmusPortal.Lib.GoPrintf
import LitmusPortal.Lib.Placeholders

/-!
# The manifest as its template says

`ManifestParser` formats the namespace and the service account as if they were formats, and replaces the placeholders
of a file one after the other. Beside it stands the manifest in which every value appears as it is.
-/

namespace LitmusPortal.Manifest

open GoStrings Placeholders

/-! ### The node selector -/

/-- The pairs of a node selector as a text. -/
def selectorText (pairs : List (String × String)) : String :=
  ",".intercalate (pairs.map fun pair => pair.1 ++ "=" ++ pair.2)

/-- No comma and no equals sign in a key or a value. -/
def Separable (pairs : List (String × String)) : Prop :=
  ∀ pair ∈ pairs, (',' ∉ pair.1.toList ∧ '=' ∉ pair.1.toList) ∧ (',' ∉ pair.2.toList ∧ '=' ∉ pair.2.toList)

/-- The pairs that the node selector consists of are those it is rendered with, where no key comes twice. -/
def SelectorExact (libraries : Libraries) (nodeSelector : String) : Prop :=
  ∃ pairs, nodeSelector = selectorText pairs ∧ Separable pairs ∧
    ((pairs.map Prod.fst).Nodup →
      nodeSelectorText libraries (some nodeSelector) =
        (libraries.marshalNodeSelector pairs).map fun text => addRootIndent text 6)

theorem exists_pair_of_checkSelector {selector : String} (h : checkSelector selector = .ok ()) :
    ∃ key value, splitAt (· = '=') selector = [key, value] := by
  rw [checkSelector] at h
  split at h
  · rename_i key value hsplit
    exact ⟨key, value, hsplit⟩
  · cases h

theorem checkSelector_of_forM {selectors : List String} (h : selectors.forM checkSelector = .ok ()) :
    ∀ selector ∈ selectors, checkSelector selector = .ok () := by
  induction selectors with
  | nil => exact fun selector hselector => absurd hselector List.not_mem_nil
  | cons selector selectors ih =>
      obtain ⟨⟨⟩, hhead, htail⟩ := exists_of_bind_eq_ok h
      exact List.forall_mem_cons.mpr ⟨hhead, ih htail⟩

/-- The pairs of texts that all have one equals sign. -/
theorem exists_pairs {selectors : List String} (h : ∀ selector ∈ selectors, checkSelector selector = .ok ())
    (hcomma : ∀ selector ∈ selectors, ',' ∉ selector.toList) :
    ∃ pairs : List (String × String), selectors = pairs.map (fun pair => pair.1 ++ "=" ++ pair.2) ∧ Separable pairs ∧
      ∀ entries, selectors.foldlM selectorEntry entries =
        .ok (pairs.foldl (fun entries pair => setKey entries pair.1 pair.2) entries) := by
  induction selectors with
  | nil => exact ⟨[], rfl, fun pair hpair => absurd hpair List.not_mem_nil, fun entries => rfl⟩
  | cons selector selectors ih =>
      rw [List.forall_mem_cons] at h hcomma
      obtain ⟨pairs, hpairs, hseparable, hfold⟩ := ih h.2 hcomma.2
      obtain ⟨key, value, hsplit⟩ := exists_pair_of_checkSelector h.1
      have hselector : selector = key ++ "=" ++ value := by
        rw [← intercalate_splitAt '=' selector, hsplit, String.intercalate_cons_cons, String.intercalate_singleton]
        rfl
      have hparts : ∀ part ∈ [key, value], ',' ∉ part.toList ∧ '=' ∉ part.toList := by
        intro part hpart
        refine ⟨fun hmem => hcomma.1 ?_, not_mem_of_mem_splitAt (hsplit ▸ hpart)⟩
        rw [hselector, String.toList_append, String.toList_append, List.mem_append, List.mem_append]
        rcases List.mem_cons.mp hpart with rfl | hpart
        · exact .inl (.inl hmem)
        · exact .inr (List.mem_singleton.mp hpart ▸ hmem)
      refine ⟨(key, value) :: pairs, ?_, ?_, fun entries => ?_⟩
      · rw [List.map_cons, ← hpairs, hselector]
      · refine List.forall_mem_cons.mpr ⟨⟨hparts key ?_, hparts value ?_⟩, hseparable⟩
        · exact List.mem_cons_self
        · exact List.mem_cons_of_mem _ List.mem_cons_self
      · have hentry : selectorEntry entries selector = .ok (setKey entries key value) := by
          rw [selectorEntry, hsplit]
        rw [List.foldlM_cons, hentry, List.foldl_cons]
        exact hfold (setKey entries key value)

/-- New keys are added one behind the other. -/
theorem foldl_setKey {pairs entries : List (String × String)} (h : ((entries ++ pairs).map Prod.fst).Nodup) :
    pairs.foldl (fun entries pair => setKey entries pair.1 pair.2) entries = entries ++ pairs := by
  induction pairs generalizing entries with
  | nil => exact (List.append_nil entries).symm
  | cons pair pairs ih =>
      obtain ⟨key, value⟩ := pair
      have hfresh : ∀ entry ∈ entries, entry.1 ≠ key := by
        intro entry hentry heq
        rw [List.map_append, List.nodup_append] at h
        exact h.2.2 entry.1 (List.mem_map_of_mem hentry) key (List.mem_map.mpr ⟨_, List.mem_cons_self, rfl⟩) heq
      have hset : setKey entries key value = entries ++ [(key, value)] := by
        rw [setKey, List.filter_eq_self.mpr fun entry hentry => decide_eq_true (hfresh entry hentry)]
      have hassoc : entries ++ (key, value) :: pairs = (entries ++ [(key, value)]) ++ pairs := by
        rw [List.append_assoc, List.singleton_append]
      rw [List.foldl_cons, hset, ih (hassoc ▸ h), hassoc]

/-- What the registration has let through is read with no index out of range. -/
theorem foldlM_selectorEntry_of_accepted {nodeSelector : String} (h : checkNodeSelector (some nodeSelector) = .ok ()) :
    ∃ pairs, nodeSelector = selectorText pairs ∧ Separable pairs ∧
      (splitAt (· = ',') nodeSelector).foldlM selectorEntry [] =
        .ok (pairs.foldl (fun entries pair => setKey entries pair.1 pair.2) []) := by
  obtain ⟨pairs, hpairs, hseparable, hfold⟩ := exists_pairs (checkSelector_of_forM h) fun _ => not_mem_of_mem_splitAt
  refine ⟨pairs, ?_, hseparable, hfold []⟩
  calc
    nodeSelector = (String.singleton ',').intercalate (splitAt (· = ',') nodeSelector) :=
      (intercalate_splitAt ',' nodeSelector).symm
    _ = selectorText pairs := by
      rw [hpairs]
      rfl

theorem selectorExact_of_accepted (libraries : Libraries) {nodeSelector : String}
    (h : checkNodeSelector (some nodeSelector) = .ok ()) : SelectorExact libraries nodeSelector := by
  obtain ⟨pairs, htext, hseparable, hfold⟩ := foldlM_selectorEntry_of_accepted h
  refine ⟨pairs, htext, hseparable, fun hnodup => ?_⟩
  rw [foldl_setKey (by rwa [List.nil_append]), List.nil_append] at hfold
  rw [nodeSelectorText, hfold]
  cases hmarshal : libraries.marshalNodeSelector pairs with
  | error err => simp only [bind, Except.bind, hmarshal, Except.map]
  | ok text => simp only [bind, Except.bind, hmarshal, Except.map]

/-! ### No panic -/

/-- Reading a file and writing YAML end in an error at worst. -/
structure NeverPanics (server : Server) : Prop where
  readdirnames : ∀ path message, server.files.readdirnames path ≠ .error (.panic message)
  readFile : ∀ path message, server.files.readFile path ≠ .error (.panic message)
  marshalNodeSelector : ∀ entries message, server.libraries.marshalNodeSelector entries ≠ .error (.panic message)
  marshalTolerations : ∀ tolerations message,
    server.libraries.marshalTolerations tolerations ≠ .error (.panic message)

theorem bind_ne_panic {α β : Type} {x : Except GoError α} {f : α → Except GoError β} {message : String}
    (hx : x ≠ .error (.panic message)) (hf : ∀ a, f a ≠ .error (.panic message)) :
    (x >>= f) ≠ .error (.panic message) := by
  cases x with
  | error err => exact fun h => hx (congrArg Except.error (Except.error.inj h))
  | ok a => exact hf a

theorem ok_ne_panic {α : Type} (a : α) (message : String) : (.ok a : Except GoError α) ≠ .error (.panic message) := nofun

theorem nodeSelectorText_ne_panic {server : Server} (hquiet : NeverPanics server) {nodeSelector : Option String}
    (h : checkNodeSelector nodeSelector = .ok ()) (message : String) :
    nodeSelectorText server.libraries nodeSelector ≠ .error (.panic message) := by
  cases nodeSelector with
  | none => exact ok_ne_panic "" message
  | some nodeSelector =>
      obtain ⟨pairs, -, -, hfold⟩ := foldlM_selectorEntry_of_accepted h
      rw [nodeSelectorText, hfold]
      refine bind_ne_panic (ok_ne_panic _ message) fun entries => ?_
      exact bind_ne_panic (hquiet.marshalNodeSelector entries message) fun text => ok_ne_panic _ message

theorem tolerationsText_ne_panic {server : Server} (hquiet : NeverPanics server)
    (tolerations : Option (List Toleration)) (message : String) :
    tolerationsText server.libraries tolerations ≠ .error (.panic message) := by
  cases tolerations with
  | none => exact ok_ne_panic "" message
  | some tolerations =>
      exact bind_ne_panic (hquiet.marshalTolerations tolerations message) fun text => ok_ne_panic _ message

theorem parseFiles_ne_panic {server : Server} (hquiet : NeverPanics server) (config : SubscriberConfigurationVars)
    (parse : Parse) (files : List String) (message : String) :
    parseFiles server config parse files ≠ .error (.panic message) := by
  induction files generalizing parse with
  | nil => exact ok_ne_panic _ message
  | cons file files ih => exact bind_ne_panic (hquiet.readFile _ message) fun content => ih _

theorem manifestParser_ne_panic {server : Server} (hquiet : NeverPanics server) {cluster : Cluster}
    (h : checkNodeSelector cluster.nodeSelector = .ok ()) (rootPath : String) (config : SubscriberConfigurationVars)
    (message : String) : manifestParser server cluster rootPath config ≠ .error (.panic message) := by
  refine bind_ne_panic ?_ fun parse => parseFiles_ne_panic hquiet config parse parse.files message
  refine bind_ne_panic (hquiet.readdirnames rootPath message) fun files => ?_
  refine bind_ne_panic (nodeSelectorText_ne_panic hquiet h message) fun nodeSelector => ?_
  exact bind_ne_panic (tolerationsText_ne_panic hquiet cluster.tolerations message) fun tolerations =>
    ok_ne_panic _ message

/-! ### The template -/

/-- What the parser writes itself, each text as it is. -/
def preambleTexts (cluster : Cluster) : List String :=
  (if cluster.agentNsExists.getD false = false ∧ cluster.agentScope ≠ "namespace" then [namespaceStr cluster] else []) ++
    (if cluster.agentSaExists.getD false = false then [serviceAccountStr cluster] else [])

def filePairs (parse : Parse) (config : SubscriberConfigurationVars) : List (String × String) :=
  addrPairs parse config.gqlServerURI ++ restPairs parse config

/-- All placeholders have a value: that of the node selector is empty where there is none. -/
def templatePairs (parse : Parse) (config : SubscriberConfigurationVars) : List (String × String) :=
  filePairs parse config ++ if parse.cluster.nodeSelector.isSome then [] else [("nodeselector", "")]

def charPairs (pairs : List (String × String)) : List (List Char × List Char) :=
  pairs.map fun pair => ((placeholder pair.1).toList, pair.2.toList)

def placeholderNames : List String :=
  ["tolerations", "CLUSTER_ID", "ACCESS_KEY", "SERVER_ADDR", "SUBSCRIBER-IMAGE", "EVENT-TRACKER-IMAGE",
    "AGENT-NAMESPACE", "SUBSCRIBER-SERVICE-ACCOUNT", "AGENT-SCOPE", "ARGO-WORKFLOW-CONTROLLER",
    "LITMUS-CHAOS-OPERATOR", "ARGO-WORKFLOW-EXECUTOR", "LITMUS-CHAOS-RUNNER", "LITMUS-CHAOS-EXPORTER",
    "ARGO-CONTAINER-RUNTIME-EXECUTOR", "AGENT-DEPLOYMENTS", "VERSION", "SKIP_SSL_VERIFY", "CUSTOM_TLS_CERT",
    "START_TIME", "IS_CLUSTER_CONFIRMED", "nodeselector"]

def placeholderMarks : List (List Char) := placeholderNames.map fun name => (placeholder name).toList

/-- A file with every placeholder replaced at once. -/
def fillIn (pairs : List (String × String)) (content : String) : String :=
  String.ofList (replaceTogether (charPairs pairs) content.toList)

def manifestTemplate (server : Server) (cluster : Cluster) (rootPath : String) (config : SubscriberConfigurationVars) :
    Except GoError String := do
  let parse ← openParser server cluster rootPath
  let contents ← parse.files.mapM fun file => server.files.readFile (parse.rootPath ++ "/" ++ file)
  .ok ("\n".intercalate (preambleTexts cluster ++ contents.map (fillIn (templatePairs parse config))))

/-- No value that is put in brings a placeholder of a later turn about, and none is left over for want of a node
selector. -/
structure FileLiteral (parse : Parse) (config : SubscriberConfigurationVars) (content : String) : Prop where
  untangled : Untangled (tokenize placeholderMarks 0 content.toList) id (charPairs (filePairs parse config))
  nodeSelector : parse.cluster.nodeSelector = none →
    Token.mark (placeholder "nodeselector").toList ∉ tokenize placeholderMarks 0 content.toList

/-- Every value appears as it is. -/
structure Literal (server : Server) (cluster : Cluster) (rootPath : String) (config : SubscriberConfigurationVars) :
    Prop where
  formats : ∀ text ∈ preambleTexts cluster, '%' ∉ text.toList
  files : ∀ parse, openParser server cluster rootPath = .ok parse → ∀ file ∈ parse.files, ∀ content,
    server.files.readFile (parse.rootPath ++ "/" ++ file) = .ok content → FileLiteral parse config content

theorem preamble_eq (libraries : Libraries) (cluster : Cluster) :
    preamble libraries cluster = (preambleTexts cluster).map libraries.sprintf := by
  rw [preamble, preambleTexts, List.map_append]
  congr 1
  · split <;> rfl
  · split <;> rfl

theorem names_templatePairs (parse : Parse) (config : SubscriberConfigurationVars) :
    (templatePairs parse config).map Prod.fst = placeholderNames := by
  rw [templatePairs, filePairs, addrPairs, restPairs]
  cases parse.cluster.nodeSelector <;> rfl

theorem map_fst_charPairs (pairs : List (String × String)) :
    (charPairs pairs).map Prod.fst = (pairs.map Prod.fst).map fun name => (placeholder name).toList := by
  rw [charPairs, List.map_map, List.map_map]
  rfl

theorem marks_templatePairs (parse : Parse) (config : SubscriberConfigurationVars) :
    (charPairs (templatePairs parse config)).map Prod.fst = placeholderMarks := by
  rw [map_fst_charPairs, names_templatePairs, placeholderMarks]

theorem not_mem_ofList {text : List Char} (h : '#' ∉ text ∧ '\x7d' ∉ text) :
    '#' ∉ (String.ofList text).toList ∧ '\x7d' ∉ (String.ofList text).toList := by
  rwa [String.toList_ofList]

/-- Neither a number sign nor a closing brace in the name of a placeholder. -/
theorem plain_of_mem_placeholderNames :
    ∀ name ∈ placeholderNames, '#' ∉ name.toList ∧ '\x7d' ∉ name.toList := by
  iterate 22 refine List.forall_mem_cons.mpr ⟨not_mem_ofList (by decide), ?_⟩
  exact nofun

theorem nodup_placeholderNames : placeholderNames.Nodup := by simp [placeholderNames]

theorem toList_placeholder (name : String) :
    (placeholder name).toList = '#' :: '\x7b' :: (name.toList ++ ['\x7d']) := by
  rw [placeholder, String.toList_append, String.toList_append]
  rfl

theorem numberSign_cons_of_mem {mark : List Char} (h : mark ∈ placeholderMarks) :
    ∃ name, mark = '#' :: name ∧ '#' ∉ name := by
  obtain ⟨name, hname, rfl⟩ := List.mem_map.mp h
  refine ⟨'\x7b' :: (name.toList ++ ['\x7d']), toList_placeholder name, ?_⟩
  rw [List.mem_cons, List.mem_append, List.mem_singleton]
  have hplain := (plain_of_mem_placeholderNames name hname).1
  simp [hplain]

theorem nil_not_mem_placeholderMarks : [] ∉ placeholderMarks := by
  intro h
  obtain ⟨name, hname, -⟩ := numberSign_cons_of_mem h
  cases hname

theorem nodup_placeholderMarks : placeholderMarks.Nodup := by
  have hinj : Function.Injective fun name => (placeholder name).toList := by
    intro first second (heq : (placeholder first).toList = (placeholder second).toList)
    rw [toList_placeholder, toList_placeholder, List.cons.injEq, List.cons.injEq] at heq
    exact String.toList_inj.mp (List.append_cancel_right heq.2.2)
  exact nodup_placeholderNames.map hinj

/-- A closing brace ends a placeholder, so that none goes on where another one ends. -/
theorem prefixFree_placeholderMarks :
    ∀ mark ∈ placeholderMarks, ∀ other ∈ placeholderMarks, mark <+: other → mark = other := by
  intro mark hmark other hother hleads
  obtain ⟨name, hname, rfl⟩ := List.mem_map.mp hmark
  obtain ⟨otherName, hotherName, rfl⟩ := List.mem_map.mp hother
  rw [toList_placeholder, toList_placeholder, List.cons_prefix_cons, List.cons_prefix_cons] at hleads
  obtain ⟨after, hafter⟩ := hleads.2.2
  rw [List.append_assoc, List.singleton_append] at hafter
  obtain ⟨more, hmore, hrest⟩ := split_of_not_mem (plain_of_mem_placeholderNames otherName hotherName).2 hafter.symm
  cases more with
  | nil => rw [toList_placeholder, toList_placeholder, hmore, List.append_nil]
  | cons c more =>
      have hlength := congrArg List.length hrest
      rw [List.length_singleton, List.length_append, List.length_cons, List.length_cons] at hlength
      omega

theorem substitute_eq (content : String) (pairs : List (String × String)) :
    substitute content pairs = String.ofList
      ((charPairs pairs).foldl (fun text pair => replaceChars pair.1 pair.2 0 text) content.toList) := by
  induction pairs generalizing content with
  | nil => exact String.ofList_toList.symm
  | cons pair pairs ih =>
      have hstep : substitute content (pair :: pairs) = substitute (replaceAll content (placeholder pair.1) pair.2) pairs :=
        rfl
      rw [hstep, ih, replaceAll, String.toList_ofList]
      rfl

theorem substitute_append (content : String) (first second : List (String × String)) :
    substitute content (first ++ second) = substitute (substitute content first) second := List.foldl_append

/-- The placeholders of a file's replacements are the first ones of all. -/
theorem marks_filePairs_leads (parse : Parse) (config : SubscriberConfigurationVars) :
    (charPairs (filePairs parse config)).map Prod.fst <+: placeholderMarks := by
  rw [← marks_templatePairs parse config, templatePairs, charPairs, charPairs, List.map_append, List.map_append]
  exact List.prefix_append _ _

/-- The replacements of a file come to the replacement at once. -/
theorem substitute_filePairs {parse : Parse} {config : SubscriberConfigurationVars} {content : String}
    (h : FileLiteral parse config content) :
    substitute content (filePairs parse config) = fillIn (templatePairs parse config) content := by
  have hleads := marks_filePairs_leads parse config
  have hrender : render (valueOf (charPairs (filePairs parse config))) (tokenize placeholderMarks 0 content.toList) =
      render (valueOf (charPairs (templatePairs parse config))) (tokenize placeholderMarks 0 content.toList) := by
    apply render_congr
    intro mark hmark
    cases hselector : parse.cluster.nodeSelector with
    | some nodeSelector =>
        rw [templatePairs, hselector, Option.isSome_some, if_pos rfl, List.append_nil]
    | none =>
        have hne : mark ≠ (placeholder "nodeselector").toList := by
          rintro rfl
          exact h.nodeSelector hselector hmark
        rw [templatePairs, hselector, Option.isSome_none, if_neg Bool.false_ne_true, valueOf, valueOf, charPairs, charPairs,
          List.map_append, List.lookup_append, List.map_singleton, List.lookup_cons, beq_eq_false_iff_ne.mpr hne,
          List.lookup_nil, Option.or_none]
  rw [substitute_eq, foldl_replaceChars_eq_render nil_not_mem_placeholderMarks hleads.subset
    (nodup_placeholderMarks.sublist hleads.sublist) h.untangled, hrender, fillIn, replaceTogether, marks_templatePairs]

theorem parseFiles_eq (server : Server) (config : SubscriberConfigurationVars) (parse : Parse) (files : List String) :
    parseFiles server config parse files =
      (files.mapM fun file => server.files.readFile (parse.rootPath ++ "/" ++ file)) >>= fun contents =>
        .ok ("\n".intercalate (parse.generatedYAML ++
          contents.map fun content => substitute content (filePairs parse config))) := by
  induction files generalizing parse with
  | nil =>
      rw [List.mapM_nil]
      exact congrArg (fun pieces => Except.ok ("\n".intercalate pieces)) (List.append_nil _).symm
  | cons file files ih =>
      rw [parseFiles, List.mapM_cons]
      cases server.files.readFile (parse.rootPath ++ "/" ++ file) with
      | error err => rfl
      | ok content =>
          have hpiece : substitute (substitute content (addrPairs parse config.gqlServerURI)) (restPairs parse config) =
              substitute content (filePairs parse config) := (substitute_append content _ _).symm
          change parseFiles server config (addFile parse files (substitute (substitute content _) _)) files = _
          rw [hpiece, ih]
          change ((files.mapM fun file => server.files.readFile (parse.rootPath ++ "/" ++ file)) >>= _) = _
          cases files.mapM fun file => server.files.readFile (parse.rootPath ++ "/" ++ file) with
          | error err => rfl
          | ok contents => exact congrArg (fun pieces => Except.ok ("\n".intercalate pieces)) (List.append_assoc _ _ _)

theorem openParser_eq_ok {server : Server} {cluster : Cluster} {rootPath : String} {parse : Parse}
    (h : openParser server cluster rootPath = .ok parse) :
    parse.cluster = cluster ∧ parse.generatedYAML = preamble server.libraries cluster := by
  obtain ⟨files, -, hrest⟩ := exists_of_bind_eq_ok h
  obtain ⟨nodeSelector, -, hrest⟩ := exists_of_bind_eq_ok hrest
  obtain ⟨tolerations, -, hrest⟩ := exists_of_bind_eq_ok hrest
  rw [← Except.ok.inj hrest]
  exact ⟨rfl, rfl⟩

theorem mem_of_mapM_eq_ok {α β ε : Type} {f : α → Except ε β} {xs : List α} {ys : List β} (h : xs.mapM f = .ok ys) :
    ∀ y ∈ ys, ∃ x ∈ xs, f x = .ok y := by
  induction xs generalizing ys with
  | nil =>
      cases h
      exact fun y hy => absurd hy List.not_mem_nil
  | cons x xs ih =>
      rw [List.mapM_cons] at h
      obtain ⟨head, hhead, hrest⟩ := exists_of_bind_eq_ok h
      obtain ⟨tail, htail, hresult⟩ := exists_of_bind_eq_ok hrest
      cases hresult
      refine List.forall_mem_cons.mpr ⟨⟨x, List.mem_cons_self, hhead⟩, fun y hy => ?_⟩
      obtain ⟨source, hsource, hok⟩ := ih htail y hy
      exact ⟨source, List.mem_cons_of_mem x hsource, hok⟩

/-- Formats without a percent sign, and files in which no placeholder arises: the manifest is its template. -/
theorem manifestParser_eq_template {server : Server} (hsprintf : server.libraries.sprintf = GoPrintf.sprintf)
    {cluster : Cluster} {rootPath : String} {config : SubscriberConfigurationVars}
    (h : Literal server cluster rootPath config) :
    manifestParser server cluster rootPath config = manifestTemplate server cluster rootPath config := by
  have hpreamble : preamble server.libraries cluster = preambleTexts cluster := by
    rw [preamble_eq, hsprintf]
    calc
      (preambleTexts cluster).map GoPrintf.sprintf = (preambleTexts cluster).map id :=
        List.map_congr_left fun text htext => GoPrintf.sprintf_of_not_mem (h.formats text htext)
      _ = preambleTexts cluster := List.map_id _
  rw [manifestParser, manifestTemplate]
  cases hopen : openParser server cluster rootPath with
  | error err => rfl
  | ok parse =>
      change parseFiles server config parse parse.files = _
      rw [parseFiles_eq, (openParser_eq_ok hopen).2, hpreamble]
      change _ = ((parse.files.mapM fun file => server.files.readFile (parse.rootPath ++ "/" ++ file)) >>= fun contents =>
        .ok ("\n".intercalate (preambleTexts cluster ++ contents.map (fillIn (templatePairs parse config)))))
      cases hcontents : parse.files.mapM fun file => server.files.readFile (parse.rootPath ++ "/" ++ file) with
      | error err => rfl
      | ok contents =>
          have hpieces : contents.map (fun content => substitute content (filePairs parse config)) =
              contents.map (fillIn (templatePairs parse config)) := by
            refine List.map_congr_left fun content hcontent => ?_
            obtain ⟨file, hfile, hread⟩ := mem_of_mapM_eq_ok hcontents content hcontent
            exact substitute_filePairs (h.files parse hopen file hfile content hread)
          exact congrArg (fun pieces => Except.ok ("\n".intercalate (preambleTexts cluster ++ pieces))) hpieces

/-- Every cluster whose node selector the registration accepts is parsed without a panic and with its pairs, and into
the template wherever every value appears as it is. -/
theorem manifestParser_literal {server : Server} (hsprintf : server.libraries.sprintf = GoPrintf.sprintf)
    (hquiet : NeverPanics server) {cluster : Cluster} (haccepted : checkNodeSelector cluster.nodeSelector = .ok ())
    (rootPath : String) (config : SubscriberConfigurationVars) :
    (∀ message, manifestParser server cluster rootPath config ≠ .error (.panic message)) ∧
      (∀ nodeSelector, cluster.nodeSelector = some nodeSelector → SelectorExact server.libraries nodeSelector) ∧
      (Literal server cluster rootPath config →
        manifestParser server cluster rootPath config = manifestTemplate server cluster rootPath config) := by
  refine ⟨manifestParser_ne_panic hquiet haccepted rootPath config, ?_, manifestParser_eq_template hsprintf⟩
  intro nodeSelector hselector
  rw [hselector] at haccepted
  exact selectorExact_of_accepted server.libraries haccepted

/-! ### A file with two placeholders -/

/-- YAML of texts that need no quotes. -/
def plainLibraries : Libraries where
  marshalNodeSelector entries :=
    .ok ("nodeSelector:\n" ++ String.join (entries.map fun entry => "  " ++ entry.1 ++ ": " ++ entry.2 ++ "\n"))
  marshalTolerations _ := .ok "tolerations: []\n"
  sprintf := GoPrintf.sprintf

def templateServer : Server where
  env := ⟨"2.14.0", "", "cluster", "", "", "api", "litmus", "false"⟩
  files := ⟨fun _ => .ok ["agent.yaml"], fun _ =>
    .ok "namespace: #\x7bAGENT-NAMESPACE\x7d\nversion: #\x7bVERSION\x7d\n#\x7bnodeselector\x7d\n"⟩
  libraries := plainLibraries
  clusters := []

def templateConfig : SubscriberConfigurationVars := ⟨"", "", "", "", "", "", "", "", "", "", "", "", "2.14.0", ""⟩

def registration (agentNamespace : String) : RegisterClusterRequest where
  clusterName := "agent"
  description := none
  platformName := "Others"
  projectID := "project-1"
  clusterType := "external"
  agentNamespace := some agentNamespace
  serviceAccount := none
  agentScope := "cluster"
  agentNsExists := some true
  agentSaExists := some true
  skipSsl := none
  nodeSelector := some "disk=ssd,zone=a"
  tolerations := none

def registerSteps : RegisterSteps := ⟨.ok "http://localhost", "cluster-1", .ok "token", "key-1", 0, false⟩

def registeredCluster (agentNamespace : String) : Cluster :=
  newCluster (registration agentNamespace) registerSteps "token"

theorem neverPanics_templateServer : NeverPanics templateServer where
  readdirnames _ _ := nofun
  readFile _ _ := nofun
  marshalNodeSelector _ _ := nofun
  marshalTolerations _ _ := nofun

theorem checkNodeSelector_registration :
    checkNodeSelector (registration "chaos").nodeSelector = .ok () := by decide +kernel

/-- What the loop over the files starts with. -/
def templateParse : Parse where
  cluster := registeredCluster "chaos"
  nodeSelector := "nodeSelector:\n        disk: ssd\n        zone: a\n      "
  tolerations := ""
  rootPath := "manifests/cluster"
  generatedYAML := []
  files := ["agent.yaml"]

theorem openParser_templateServer :
    openParser templateServer (registeredCluster "chaos") "manifests/cluster" = .ok templateParse := by decide +kernel

theorem fileLiteral_templateParse :
    FileLiteral templateParse templateConfig
      "namespace: #\x7bAGENT-NAMESPACE\x7d\nversion: #\x7bVERSION\x7d\n#\x7bnodeselector\x7d\n" where
  untangled := by
    apply untangled_of_free (fun mark => numberSign_cons_of_mem) prefixFree_placeholderMarks
    · simp only [placeholderMarks, placeholderNames, List.map_cons, List.map_nil, toList_placeholder]
      repeat rw [String.toList_ofList]
      decide +kernel
    · exact fun other hother => mark_mem_of_tokenize hother
    · intro pair hpair
      have hvalues : ∀ pair ∈ filePairs templateParse templateConfig, '#' ∉ pair.2.toList := by decide +kernel
      refine ⟨(marks_filePairs_leads _ _).subset (List.mem_map_of_mem hpair), ?_⟩
      obtain ⟨source, hsource, rfl⟩ := List.mem_map.mp hpair
      exact hvalues source hsource
    · exact fun mark _ => .inl rfl
  nodeSelector := nofun

/-- A number sign stands in no value here, and in the file only at the head of a placeholder. -/
theorem literal_templateServer :
    Literal templateServer (registeredCluster "chaos") "manifests/cluster" templateConfig where
  formats := by decide +kernel
  files parse hparse file _ content hcontent := by
    rw [openParser_templateServer] at hparse
    rw [← Except.ok.inj hparse, ← Except.ok.inj hcontent]
    exact fileLiteral_templateParse

theorem manifestParser_literal_chaos :
    manifestParser templateServer (registeredCluster "chaos") "manifests/cluster" templateConfig =
      manifestTemplate templateServer (registeredCluster "chaos") "manifests/cluster" templateConfig :=
  (manifestParser_literal rfl neverPanics_templateServer checkNodeSelector_registration "manifests/cluster"
    templateConfig).2.2 literal_templateServer

theorem openParser_placeholder :
    openParser templateServer (registeredCluster "#\x7bVERSION\x7d") "manifests/cluster" =
      .ok { templateParse with cluster := registeredCluster "#\x7bVERSION\x7d" } := by decide +kernel

/-- The namespace of an accepted agent is a placeholder, and the manifest has the version in its place. -/
theorem not_manifestParser_literal :
    (registerCluster registerSteps [] (registration "#\x7bVERSION\x7d")).1 =
        .ok ⟨"cluster-1", "token", "agent"⟩ ∧
      manifestParser templateServer (registeredCluster "#\x7bVERSION\x7d") "manifests/cluster" templateConfig ≠
        manifestTemplate templateServer (registeredCluster "#\x7bVERSION\x7d") "manifests/cluster" templateConfig := by
  refine ⟨by decide +kernel, ?_⟩
  rw [manifestParser, manifestTemplate, openParser_placeholder]
  simp only [bind, Except.bind, parseFiles_eq, substitute_eq, fillIn, charPairs, templatePairs, filePairs, addrPairs,
    restPairs, templateParse, templateServer, List.mapM_cons, List.mapM_nil, pure, Except.pure, List.map_append,
    List.map_cons, List.map_nil, toList_placeholder]
  repeat rw [String.toList_ofList]
  decide +kernel

end LitmusPortal.Manifest
