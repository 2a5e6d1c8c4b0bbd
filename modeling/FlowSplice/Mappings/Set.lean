import FlowSplice.Deployment.Trust
import FlowSplice.Lib.SocketAddr
import FlowSplice.Protocol

/-! Sets of local mappings: `validate_mapping_set`, `mapping_key`, and what `upsert_mapping` and
`delete_mapping` of `flowsplice-travel-core/src/lib.rs` make of the set that they find. -/
namespace FlowSplice.Mappings

structure Mapping where
  homeId : String
  serviceId : String
  protocol : ServiceProtocol
  bind : String
deriving DecidableEq, Repr

/-- What `validate_mapping_set` reads of the configuration. `serviceClass` tells whether there is
one. -/
structure Config where
  serviceClass : Bool := false
  homes : List String
deriving DecidableEq, Repr

inductive MappingError where
  | noHome
  | invalidHomes
  | classListener
  | unknownHome
  | invalidBind
  | notLoopback
  | duplicateService
  | duplicateBind
  | doesNotExist
  | bindFailed (reason : String)
  | persistFailed (reason : String)
deriving DecidableEq, Repr

def MappingError.text : MappingError → String
  | .noHome => "at least one Home Agent is required"
  | .invalidHomes => "Home ids must be non-empty and unique"
  | .classListener => "class configuration cannot install listeners"
  | .unknownHome => "every mapping must name a configured Home and a non-empty service"
  | .invalidBind => "invalid mapping bind"
  | .notLoopback => "Travel mapping listeners must bind directly to 127.0.0.1"
  | .duplicateService => "mapping Home/service/protocol tuples must be unique"
  | .duplicateBind => "mapping bind addresses must be unique"
  | .doesNotExist => "mapping does not exist"
  | .bindFailed reason => reason
  | .persistFailed reason => reason

/-- `test_remote_ui_enabled` without the feature of the tests. -/
def testRemoteUiEnabled (_ : Config) : Bool := false

/-- The loop of `configured_home_ids`. -/
def configuredHomeIdsFrom : List String → List String → Except MappingError (List String)
  | seen, [] => .ok seen
  | seen, home :: rest =>
    if home = "" ∨ home ∈ seen then .error .invalidHomes
    else configuredHomeIdsFrom (home :: seen) rest

def configuredHomeIds (homes : List String) : Except MappingError (List String) :=
  if homes = [] then .error .noHome else configuredHomeIdsFrom [] homes

/-- What must be unique in a set of mappings. -/
def Mapping.service (mapping : Mapping) : String × String × ServiceProtocol :=
  (mapping.homeId, mapping.serviceId, mapping.protocol)

/-- `Ipv4Addr::LOCALHOST`. -/
def localhost : SocketAddr.IpAddr := .v4 [127, 0, 0, 1]

/-- What the loop of `validate_mapping_set` checks of a mapping by itself, up to its bind. -/
def checkMapping (config : Config) (homeIds : List String) (mapping : Mapping) :
    Except MappingError SocketAddr.Addr :=
  if mapping.serviceId = "" ∨ mapping.homeId ∉ homeIds then .error .unknownHome
  else match SocketAddr.parse (stringBytes mapping.bind) with
    | none => .error .invalidBind
    | some bind =>
      if bind.ip ≠ localhost ∧ ¬ testRemoteUiEnabled config then .error .notLoopback
      else .ok bind

/-- The loop of `validate_mapping_set`, with the services and binds that it has seen. -/
def validateFrom (config : Config) (homeIds : List String) :
    List (String × String × ServiceProtocol) → List SocketAddr.Addr → List Mapping →
      Except MappingError Unit
  | _, _, [] => .ok ()
  | services, binds, mapping :: rest =>
    match checkMapping config homeIds mapping with
    | .error error => .error error
    | .ok bind =>
      if mapping.service ∈ services then .error .duplicateService
      else if bind ∈ binds then .error .duplicateBind
      else validateFrom config homeIds (mapping.service :: services) (bind :: binds) rest

def validateMappingSet (config : Config) (mappings : List Mapping) : Except MappingError Unit :=
  if config.serviceClass then
    if mappings ≠ [] then .error .classListener else .ok ()
  else match configuredHomeIds config.homes with
    | .error error => .error error
    | .ok homeIds => validateFrom config homeIds [] [] mappings

def protocolName : ServiceProtocol → String
  | .tcp => "tcp"
  | .udp => "udp"

def key (homeId serviceId : String) (protocol : ServiceProtocol) : String :=
  homeId ++ "\x00" ++ serviceId ++ "\x00" ++ protocolName protocol

def mappingKey (mapping : Mapping) : String :=
  key mapping.homeId mapping.serviceId mapping.protocol

inductive Request where
  | upsert (mapping : Mapping)
  | delete (homeId serviceId : String) (protocol : ServiceProtocol)
deriving DecidableEq, Repr

/-- The key that a request is about. -/
def Request.key : Request → String
  | .upsert mapping => mappingKey mapping
  | .delete homeId serviceId protocol => Mappings.key homeId serviceId protocol

/-- The set that a request wants, and its answer. -/
structure Change where
  next : List Mapping
  answer : Mapping
deriving DecidableEq, Repr

/-- The first mapping with the key is replaced, or the mapping is put at the end. -/
def replaceOrPush (mapping : Mapping) : List Mapping → List Mapping
  | [] => [mapping]
  | existing :: rest =>
    if mappingKey existing = mappingKey mapping then mapping :: rest
    else existing :: replaceOrPush mapping rest

/-- What a request makes of the set that it finds. `none` is a mapping that is there already. -/
def change (config : Config) (current : List Mapping) (request : Request) :
    Except MappingError (Option Change) :=
  let found := current.find? fun candidate => mappingKey candidate = request.key
  match request with
  | .upsert mapping =>
    if found = some mapping then .ok none
    else match validateMappingSet config (replaceOrPush mapping current) with
      | .error error => .error error
      | .ok () => .ok (some { next := replaceOrPush mapping current, answer := mapping })
  | .delete .. =>
    match found with
    | none => .error .doesNotExist
    | some removed => .ok (some {
        next := current.filter fun candidate => mappingKey candidate ≠ request.key
        answer := removed })

/-- The configured Homes have no NUL in their ids. -/
def Config.Plain (config : Config) : Prop := ∀ home ∈ config.homes, '\x00' ∉ home.toList

variable {config : Config} {homeIds : List String} {current l l' : List Mapping}
  {services services' : List (String × String × ServiceProtocol)}
  {binds binds' : List SocketAddr.Addr} {mapping m : Mapping}

theorem mem_homeIds_of_checkMapping {bind : SocketAddr.Addr}
    (h : checkMapping config homeIds mapping = .ok bind) : mapping.homeId ∈ homeIds := by
  by_contra hnot
  unfold checkMapping at h
  rw [if_pos (.inr hnot)] at h
  cases h

theorem validateFrom_cons (h : validateFrom config homeIds services binds (mapping :: l) = .ok ()) :
    ∃ bind, checkMapping config homeIds mapping = .ok bind ∧ mapping.service ∉ services ∧
      bind ∉ binds ∧
      validateFrom config homeIds (mapping.service :: services) (bind :: binds) l = .ok () := by
  unfold validateFrom at h
  cases hcheck : checkMapping config homeIds mapping with
  | error error =>
    rw [hcheck] at h
    cases h
  | ok bind =>
    rw [hcheck] at h
    dsimp only at h
    by_cases hservice : mapping.service ∈ services
    · rw [if_pos hservice] at h
      cases h
    · rw [if_neg hservice] at h
      by_cases hbind : bind ∈ binds
      · rw [if_pos hbind] at h
        cases h
      · rw [if_neg hbind] at h
        exact ⟨bind, rfl, hservice, hbind, h⟩

/-- The services of a set that is accepted are unique and of configured Homes. -/
theorem services_of_validateFrom (h : validateFrom config homeIds services binds l = .ok ()) :
    (∀ m ∈ l, m.homeId ∈ homeIds ∧ m.service ∉ services) ∧ (l.map Mapping.service).Nodup := by
  induction l generalizing services binds with
  | nil => exact ⟨fun _ hm => (by cases hm), List.nodup_nil⟩
  | cons mapping rest ih =>
    obtain ⟨bind, hcheck, hservice, -, hrest⟩ := validateFrom_cons h
    obtain ⟨hmem, hnodup⟩ := ih hrest
    constructor
    · intro m hm
      rcases List.mem_cons.mp hm with rfl | hm
      · exact ⟨mem_homeIds_of_checkMapping hcheck, hservice⟩
      · obtain ⟨hhome, hseen⟩ := hmem m hm
        exact ⟨hhome, fun hin => hseen (List.mem_cons_of_mem _ hin)⟩
    · rw [List.map_cons, List.nodup_cons]
      refine ⟨fun hin => ?_, hnodup⟩
      obtain ⟨m, hm, heq⟩ := List.mem_map.mp hin
      apply (hmem m hm).2
      rw [heq]
      exact List.mem_cons_self

/-- A part of a set that is accepted is accepted. -/
theorem validateFrom_sublist (hsub : l'.Sublist l)
    (h : validateFrom config homeIds services binds l = .ok ())
    (hservices : services' ⊆ services) (hbinds : binds' ⊆ binds) :
    validateFrom config homeIds services' binds' l' = .ok () := by
  induction hsub generalizing services binds services' binds' with
  | slnil => rfl
  | cons mapping hsub ih =>
    obtain ⟨bind, -, -, -, hrest⟩ := validateFrom_cons h
    exact ih hrest (fun x hx => List.mem_cons_of_mem _ (hservices hx))
      fun x hx => List.mem_cons_of_mem _ (hbinds hx)
  | cons_cons mapping hsub ih =>
    obtain ⟨bind, hcheck, hservice, hbind, hrest⟩ := validateFrom_cons h
    unfold validateFrom
    rw [hcheck]
    dsimp only
    rw [if_neg fun hin => hservice (hservices hin), if_neg fun hin => hbind (hbinds hin)]
    exact ih hrest (List.cons_subset_cons _ hservices) (List.cons_subset_cons _ hbinds)

theorem validateMappingSet_sublist (hsub : l'.Sublist l)
    (h : validateMappingSet config l = .ok ()) : validateMappingSet config l' = .ok () := by
  unfold validateMappingSet at h ⊢
  cases hclass : config.serviceClass with
  | true =>
    rw [if_pos hclass] at h
    by_cases hnil : l = []
    · subst hnil
      rw [List.sublist_nil.mp hsub]
      rfl
    · rw [if_pos hnil] at h
      cases h
  | false =>
    rw [hclass] at h
    cases hhomes : configuredHomeIds config.homes with
    | error error =>
      rw [hhomes] at h
      cases h
    | ok homeIds =>
      rw [hhomes] at h
      exact validateFrom_sublist hsub h (List.Subset.refl _) (List.Subset.refl _)

theorem mem_homes_of_configuredHomeIdsFrom {seen homes : List String}
    (h : configuredHomeIdsFrom seen homes = .ok homeIds) : ∀ home ∈ homeIds,
      home ∈ seen ∨ home ∈ homes := by
  induction homes generalizing seen with
  | nil =>
    rw [← Except.ok.inj h]
    exact fun home hhome => .inl hhome
  | cons first rest ih =>
    unfold configuredHomeIdsFrom at h
    by_cases hinvalid : first = "" ∨ first ∈ seen
    · rw [if_pos hinvalid] at h
      cases h
    · rw [if_neg hinvalid] at h
      intro home hhome
      rcases ih h home hhome with hseen | hrest
      · rcases List.mem_cons.mp hseen with rfl | hseen
        · exact .inr List.mem_cons_self
        · exact .inl hseen
      · exact .inr (List.mem_cons_of_mem _ hrest)

theorem services_of_valid (h : validateMappingSet config l = .ok ()) :
    (∀ m ∈ l, m.homeId ∈ config.homes) ∧ (l.map Mapping.service).Nodup := by
  unfold validateMappingSet at h
  cases hclass : config.serviceClass with
  | true =>
    rw [if_pos hclass] at h
    by_cases hnil : l = []
    · rw [hnil]
      exact ⟨fun _ hm => (by cases hm), List.nodup_nil⟩
    · rw [if_pos hnil] at h
      cases h
  | false =>
    rw [hclass] at h
    unfold configuredHomeIds at h
    by_cases hnil : config.homes = []
    · rw [if_pos hnil] at h
      cases h
    · rw [if_neg hnil] at h
      cases hhomes : configuredHomeIdsFrom [] config.homes with
      | error error =>
        rw [hhomes] at h
        cases h
      | ok homeIds =>
        rw [hhomes] at h
        obtain ⟨hmem, hnodup⟩ := services_of_validateFrom h
        refine ⟨fun m hm => ?_, hnodup⟩
        rcases mem_homes_of_configuredHomeIdsFrom hhomes m.homeId (hmem m hm).1 with hseen | hhome
        · cases hseen
        · exact hhome

/-- The first occurrence of a separator splits a text in one way. -/
theorem append_separator_inj {α : Type*} {x : α} {a a' b b' : List α} (ha : x ∉ a) (ha' : x ∉ a')
    (h : a ++ x :: b = a' ++ x :: b') : a = a' ∧ b = b' := by
  induction a generalizing a' with
  | nil =>
    cases a' with
    | nil => exact ⟨rfl, (List.cons.inj h).2⟩
    | cons y rest =>
      have hfirst : x = y := (List.cons.inj h).1
      exact absurd (hfirst ▸ List.mem_cons_self) ha'
  | cons z rest ih =>
    cases a' with
    | nil =>
      have hfirst : z = x := (List.cons.inj h).1
      exact absurd (hfirst ▸ List.mem_cons_self) ha
    | cons y rest' =>
      obtain ⟨hfirst, hrest⟩ := List.cons.inj h
      have hsplit := ih (fun hin => ha (List.mem_cons_of_mem _ hin))
        (fun hin => ha' (List.mem_cons_of_mem _ hin)) hrest
      exact ⟨by rw [hfirst, hsplit.1], hsplit.2⟩

/-- Without a NUL in the id of a Home, a key is that of one service only. -/
theorem service_of_mappingKey (hplain : '\x00' ∉ mapping.homeId.toList)
    (hplain' : '\x00' ∉ m.homeId.toList) (h : mappingKey mapping = mappingKey m) :
    mapping.service = m.service := by
  have htext : ∀ x : Mapping, (mappingKey x).toList = x.homeId.toList ++
      '\x00' :: (x.serviceId.toList ++ '\x00' :: (protocolName x.protocol).toList) := by
    intro x
    unfold mappingKey key
    simp [String.toList_append]
  have hlist := congrArg String.toList h
  rw [htext, htext] at hlist
  obtain ⟨hhome, hrest⟩ := append_separator_inj hplain hplain' hlist
  have hlength : ('\x00' :: (protocolName mapping.protocol).toList).length =
      ('\x00' :: (protocolName m.protocol).toList).length := by
    cases mapping.protocol <;> cases m.protocol <;> rfl
  obtain ⟨hservice, hprotocol⟩ := List.append_inj' hrest hlength
  have hprotocol : mapping.protocol = m.protocol := by
    revert hprotocol
    cases mapping.protocol <;> cases m.protocol <;> decide
  unfold Mapping.service
  rw [String.toList_inj.mp hhome, String.toList_inj.mp hservice, hprotocol]

theorem keys_nodup (hplain : config.Plain) (h : validateMappingSet config l = .ok ()) :
    (l.map mappingKey).Nodup := by
  obtain ⟨hhomes, hnodup⟩ := services_of_valid h
  apply List.Nodup.map_on _ (List.Nodup.of_map _ hnodup)
  intro x hx y hy heq
  apply List.inj_on_of_nodup_map hnodup hx hy
  exact service_of_mappingKey (hplain _ (hhomes x hx)) (hplain _ (hhomes y hy)) heq

theorem mem_replaceOrPush (hnodup : (current.map mappingKey).Nodup) :
    m ∈ replaceOrPush mapping current ↔
      m = mapping ∨ m ∈ current ∧ mappingKey m ≠ mappingKey mapping := by
  induction current with
  | nil =>
    unfold replaceOrPush
    simp
  | cons existing rest ih =>
    rw [List.map_cons, List.nodup_cons] at hnodup
    unfold replaceOrPush
    by_cases hkey : mappingKey existing = mappingKey mapping
    · rw [if_pos hkey, List.mem_cons]
      constructor
      · rintro (rfl | hm)
        · exact .inl rfl
        · refine .inr ⟨List.mem_cons_of_mem _ hm, fun heq => hnodup.1 ?_⟩
          rw [hkey, ← heq]
          exact List.mem_map_of_mem hm
      · rintro (rfl | ⟨hm, hne⟩)
        · exact .inl rfl
        · rcases List.mem_cons.mp hm with rfl | hm
          · exact absurd hkey hne
          · exact .inr hm
    · rw [if_neg hkey, List.mem_cons, ih hnodup.2, List.mem_cons]
      constructor
      · rintro (rfl | rfl | ⟨hm, hne⟩)
        · exact .inr ⟨.inl rfl, hkey⟩
        · exact .inl rfl
        · exact .inr ⟨.inr hm, hne⟩
      · rintro (rfl | ⟨rfl | hm, hne⟩)
        · exact .inr (.inl rfl)
        · exact .inl rfl
        · exact .inr (.inr ⟨hm, hne⟩)

/-- A change leads to a set that is accepted, which has the mappings with other keys, and for a
mapping that is set also that one. -/
theorem change_ok (hplain : config.Plain) (hvalid : validateMappingSet config current = .ok ())
    {request : Request} {c : Change} (h : change config current request = .ok (some c)) :
    validateMappingSet config c.next = .ok () ∧
      ∀ m, m ∈ c.next ↔ (request = .upsert m) ∨ m ∈ current ∧ mappingKey m ≠ request.key := by
  unfold change at h
  cases request with
  | upsert mapping =>
    dsimp only at h
    split at h
    · cases h
    split at h
    · cases h
    · next hnext =>
      rw [← Option.some.inj (Except.ok.inj h)]
      refine ⟨hnext, fun m => ?_⟩
      rw [mem_replaceOrPush (keys_nodup hplain hvalid)]
      constructor
      · rintro (rfl | hm)
        · exact .inl rfl
        · exact .inr hm
      · rintro (heq | hm)
        · exact .inl (Request.upsert.inj heq).symm
        · exact .inr hm
  | delete homeId serviceId protocol =>
    dsimp only at h
    split at h
    · cases h
    · rw [← Option.some.inj (Except.ok.inj h)]
      refine ⟨validateMappingSet_sublist List.filter_sublist hvalid, fun m => ?_⟩
      rw [List.mem_filter]
      constructor
      · rintro ⟨hm, hne⟩
        exact .inr ⟨hm, by simpa using hne⟩
      · rintro (heq | ⟨hm, hne⟩)
        · cases heq
        · exact ⟨hm, by simpa using hne⟩

end FlowSplice.Mappings
