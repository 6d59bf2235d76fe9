import Dokploy.Traefik.Agreement
import Dokploy.Traefik.FailedReads

namespace Dokploy
namespace Traefik

open Foundation

/-!
# The agreement over a run

Every operation that meets its condition keeps the invariant, and the invariant
says that the file agrees with the database.
-/

/-- The password gate has one line for each user, and there is none without users. -/
def HasGate (application : Application) (files : Files) : Prop :=
  if application.security = [] then files.middleware (authName application.appName) = none
  else Exists fun settings => files.middleware (authName application.appName) = some (.basicAuth settings) ∧
    (settings.users.getD []).map userName = application.security.map fun data => userName data.username

structure Steady (toPunycode : String -> String) (independent : String -> String -> Prop) (state : Routing) : Prop where
  sound : Sound state.files
  routers : RoutersAgree toPunycode independent state.application state.Enabled state.files.router
  served : forall domain, state.Enabled domain -> forall name, name ∈ servingMiddlewares state.application domain ->
    NamedAfter state.application.appName name -> (state.files.middleware name).isSome = true
  redirects : forall redirect, redirect ∈ state.application.redirects ->
    (state.files.middleware (redirectName state.application.appName redirect.uniqueConfigKey)).isSome = true
  gate : HasGate state.application state.files

section Invariant

variable {toPunycode : String -> String} {independent : String -> String -> Prop} {state : Routing}

theorem HasGate.defined {application : Application} {files : Files} (gate : HasGate application files)
    (users : application.security ≠ []) : (files.middleware (authName application.appName)).isSome = true := by
  rw [HasGate, if_neg users] at gate
  rcases gate with ⟨settings, isGate, _⟩
  rw [isGate]
  rfl

theorem HasGate.transfer {application changed : Application} {files after : Files} (gate : HasGate application files)
    (sameName : changed.appName = application.appName) (sameUsers : changed.security = application.security)
    (same : after.middleware (authName application.appName) = files.middleware (authName application.appName)) :
    HasGate changed after := by
  rw [HasGate, sameUsers, sameName, same]
  exact gate

theorem Steady.agrees (steady : Steady toPunycode independent state) : Agrees toPunycode independent state where
  plain := steady.routers.plain
  secure := steady.routers.secure
  only := steady.routers.only
  defined := by
    intro name router middleware isRouter member named
    have listed : forall domain, state.Enabled domain -> forall entryPoint,
        Alike independent router (createRouterConfig toPunycode state.application domain entryPoint) ->
          (state.files.middleware middleware).isSome = true := by
      rintro domain isEnabled entryPoint ⟨middlewares, isFound, same⟩
      rw [isFound, Option.getD_some, same.mem_iff] at member
      simp only [createRouterConfig, Option.getD_some] at member
      split at member
      · rw [List.mem_singleton.mp member] at named
        rcases named.kinds with ⟨kind, _⟩ | ⟨_, key, isRedirect⟩ | ⟨kind, _⟩ | ⟨kind, _⟩ | ⟨kind, _⟩
        · exact absurd kind (by decide)
        · exact absurd isRedirect.symm redirectName_ne_https
        · exact absurd kind (by decide)
        · exact absurd kind (by decide)
        · exact absurd kind (by decide)
      · exact steady.served domain isEnabled middleware member named
    rcases steady.routers.only name (by rw [isRouter]; rfl) with ⟨domain, isEnabled, plain | ⟨hasSecure, secure⟩⟩
    · rcases steady.routers.plain domain isEnabled with ⟨found, isFound, alike⟩
      rw [← plain, isRouter] at isFound
      cases isFound
      exact listed domain isEnabled _ alike
    · rcases steady.routers.secure domain isEnabled hasSecure with ⟨found, isFound, alike⟩
      rw [← secure, isRouter] at isFound
      cases isFound
      exact listed domain isEnabled _ alike

theorem served_of_parts {application : Application} {domain : Domain} {files : Files}
    (path : forall name, name ∈ pathNames application.appName domain -> (files.middleware name).isSome = true)
    (redirects : forall redirect, redirect ∈ application.redirects ->
      (files.middleware (redirectName application.appName redirect.uniqueConfigKey)).isSome = true)
    (gate : application.security ≠ [] -> (files.middleware (authName application.appName)).isSome = true)
    (login : forall name, name ∈ loginNames application.appName domain -> (files.middleware name).isSome = true)
    (custom : forall name, name ∈ domain.custom -> NamedAfter application.appName name ->
      (files.middleware name).isSome = true) {name : String} (member : name ∈ servingMiddlewares application domain)
    (named : NamedAfter application.appName name) : (files.middleware name).isSome = true := by
  rw [serving_split] at member
  simp only [List.mem_append] at member
  rcases member with (isPath | isRedirect) | ((isGate | isLogin) | isCustom)
  · exact path name isPath
  · rcases (kindOf_redirectNames isRedirect).2.2 with ⟨redirect, known, isName⟩
    rw [isName]
    exact redirects redirect known
  · rcases (kindOf_gateNames isGate).2 with ⟨users, isName⟩
    rw [isName, gateName] at named ⊢
    rw [← named.unique NamedAfter.auth]
    exact gate users
  · exact login name isLogin
  · exact custom name isCustom named

theorem pathNames_defined {appName : String} {domain : Domain} {name : String} (member : name ∈ pathNames appName domain) :
    name ∈ (pathMiddlewares appName domain).map Prod.fst := by
  rw [pathMiddlewares, List.map_append, List.mem_append]
  rcases List.mem_append.mp member with stripped | added
  · rcases Option.map_eq_some_iff.mp (Option.mem_toList.mp stripped) with ⟨path, needed, isName⟩
    refine Or.inr ?_
    rw [needed, ← isName]
    exact List.mem_singleton_self _
  · rcases Option.map_eq_some_iff.mp (Option.mem_toList.mp added) with ⟨path, needed, isName⟩
    refine Or.inl ?_
    rw [needed, ← isName]
    exact List.mem_singleton_self _

theorem definedBy_domain {appName : String} {domain : Domain} {name : String} (member : name ∈ definedBy appName domain) :
    name ∈ domainMiddlewares appName domain.uniqueConfigKey := by
  rcases List.mem_append.mp member with path | login
  · rcases List.mem_map.mp path with ⟨entry, isEntry, isName⟩
    rw [← isName]
    exact pathMiddlewares_named isEntry
  · exact (kindOf_loginNames login).1

theorem mem_setDomain {domains : List Domain} {domain other : Domain} :
    other ∈ setDomain domains domain <->
      other = domain ∨ (other ∈ domains ∧ other.uniqueConfigKey ≠ domain.uniqueConfigKey) := by
  unfold setDomain
  split
  · rename_i present
    rw [List.mem_map]
    constructor
    · rintro ⟨before, member, isOther⟩
      split at isOther
      · exact Or.inl isOther.symm
      · rename_i different
        rw [← isOther]
        exact Or.inr ⟨member, different⟩
    · rintro (isDomain | ⟨member, different⟩)
      · rcases List.mem_map.mp present with ⟨before, member, sameKey⟩
        exact ⟨before, member, by rw [if_pos sameKey, isDomain]⟩
      · exact ⟨other, member, if_neg different⟩
  · rename_i missing
    rw [List.mem_append, List.mem_singleton]
    constructor
    · rintro (member | isDomain)
      · exact Or.inr ⟨member, fun sameKey => missing (List.mem_map.mpr ⟨other, member, sameKey⟩)⟩
      · exact Or.inl isDomain
    · rintro (isDomain | ⟨member, _⟩)
      · exact Or.inr isDomain
      · exact Or.inl member

end Invariant

section Domains

variable {toPunycode : String -> String} {independent : String -> String -> Prop} {state after : Routing}

theorem Steady.manage {domain : Domain} {authGate : Option AuthGate} {remote : Bool}
    (steady : Steady toPunycode independent state) (enabled : domain.enabled = true)
    (harmless : (domain.forwardAuthEnabled = true -> authGate.isSome = true) ∧
      forall name, name ∈ domain.custom -> NamedAfter state.application.appName name ->
        name ∈ definedBy state.application.appName domain ∨ (state.files.middleware name).isSome = true) :
    Steady toPunycode independent { state with
      domains := setDomain state.domains domain
      files := (Fallible.manageDomain toPunycode remote (succeeding authGate) state.application domain
        state.files).after } := by
  rcases manageDomain_effect toPunycode remote state.application domain enabled harmless.1 steady.sound with
    ⟨sound, defines, routers⟩
  have grows : forall name, (state.files.middleware name).isSome = true -> (Files.middleware _ name).isSome = true :=
    fun name before => (defines.defined name).mpr (Or.inr before)
  have isAfter : forall other, Routing.Enabled { state with domains := setDomain state.domains domain } other <->
      other = domain ∨ (state.Enabled other ∧ other.uniqueConfigKey ≠ domain.uniqueConfigKey) := by
    intro other
    rw [Routing.Enabled, mem_setDomain, Routing.Enabled]
    constructor
    · rintro ⟨isDomain | ⟨member, different⟩, isEnabled⟩
      · exact Or.inl isDomain
      · exact Or.inr ⟨⟨member, isEnabled⟩, different⟩
    · rintro (isDomain | ⟨⟨member, isEnabled⟩, different⟩)
      · exact ⟨Or.inl isDomain, isDomain ▸ enabled⟩
      · exact ⟨Or.inr ⟨member, different⟩, isEnabled⟩
  refine ⟨sound, ?_, ?_, fun redirect member => grows _ (steady.redirects redirect member), ?_⟩
  · rw [show Files.router _ = _ from funext routers]
    exact steady.routers.manage isAfter
  · intro other isEnabled name member named
    rcases (isAfter other).mp isEnabled with isDomain | ⟨before, _⟩
    · rw [isDomain] at member
      refine served_of_parts (fun path isPath => ?_) (fun redirect known => grows _ (steady.redirects redirect known))
        (fun users => grows _ (steady.gate.defined users)) (fun login isLogin => ?_) (fun custom isCustom own => ?_)
        member named
      · exact (defines.defined path).mpr (Or.inl (List.mem_append_left _ (pathNames_defined isPath)))
      · exact (defines.defined login).mpr (Or.inl (List.mem_append_right _ isLogin))
      · exact (defines.defined custom).mpr (harmless.2 custom isCustom own)
    · exact grows name (steady.served other before name member named)
  · exact steady.gate.transfer rfl rfl (defines.same _ fun member => authName_not_domain (definedBy_domain member))

theorem Steady.remove {key : Nat} {domains : List Domain} {authGate : Option AuthGate} {remote : Bool}
    (steady : Steady toPunycode independent state) (harmless : NotNamedByHand state key)
    (isAfter : forall other, Routing.Enabled { state with domains := domains } other <->
      state.Enabled other ∧ other.uniqueConfigKey ≠ key) :
    Steady toPunycode independent { state with
      domains := domains
      files := (Fallible.removeDomain remote (succeeding authGate) state.application.appName key state.files).after } := by
  rcases removeDomain_effect remote state.application.appName key authGate steady.sound with ⟨sound, undefines, routers⟩
  refine ⟨sound, ?_, ?_, ?_, ?_⟩
  · refine steady.routers.remove isAfter ?_ ?_ ?_
    · rw [routers, getEntry_deleteEntry_other _ routerName_ne_secure, getEntry_deleteEntry_self]
    · rw [routers, getEntry_deleteEntry_self]
    · intro name notPlain notSecure
      rw [routers, getEntry_deleteEntry_other _ notSecure, getEntry_deleteEntry_other _ notPlain]
      rfl
  · intro other isEnabled name member named
    rcases (isAfter other).mp isEnabled with ⟨before, different⟩
    have kept : name ∉ domainMiddlewares state.application.appName key := by
      intro own
      rw [serving_split] at member
      simp only [List.mem_append] at member
      rcases member with (isPath | isRedirect) | ((isGate | isLogin) | isCustom)
      · exact domainMiddlewares_disjoint different (kindOf_pathNames isPath).1 own
      · rcases (kindOf_redirectNames isRedirect).2.2 with ⟨_, _, isName⟩
        rw [isName] at own
        exact redirectName_not_domain own
      · rw [(kindOf_gateNames isGate).2.2, gateName] at own
        exact authName_not_domain own
      · exact domainMiddlewares_disjoint different (kindOf_loginNames isLogin).1 own
      · exact harmless other before different name own isCustom
    rw [undefines.same name kept]
    exact steady.served other before name member named
  · intro redirect member
    rw [undefines.same _ redirectName_not_domain]
    exact steady.redirects redirect member
  · exact steady.gate.transfer rfl rfl (undefines.same _ authName_not_domain)

end Domains

section Redirects

variable {toPunycode : String -> String} {independent : String -> String -> Prop} {state : Routing} {data : Redirect}
  {remote : Bool} {files : Files}

theorem isShared_config {config : FileConfig} (isShared : files.shared = .parsed (some config)) :
    files.shared.config = config := by
  rw [isShared]
  rfl

theorem Steady.createRedirect (steady : Steady toPunycode independent state)
    (fresh : data.uniqueConfigKey ∉ state.application.redirects.map Redirect.uniqueConfigKey)
    (harmless : Harmless independent state (.createRedirect data))
    (made : Patched.createRedirectMiddleware remote state.application.appName data state.files = some files) :
    Steady toPunycode independent { state with
      application := { state.application with redirects := state.application.redirects ++ [data] }
      files := files } := by
  rcases steady.sound.shared with ⟨config, isShared⟩
  rcases harmless with ⟨hasHttp, takes⟩
  rw [isShared_config isShared] at hasHttp
  rcases patchFiles_sound remote (createRedirectMiddleware · state.application.appName data)
      (HttpRouter.push (redirectName state.application.appName data.uniqueConfigKey))
      steady.sound isShared (if_pos hasHttp) with ⟨after, isAfter, sound, written, routers⟩
  rw [Patched.createRedirectMiddleware] at made
  cases made.symm.trans isAfter
  have defines : Defines _ state.files files := defines_setMiddlewares _ isShared written
  have grows : forall name, (state.files.middleware name).isSome = true -> (files.middleware name).isSome = true :=
    fun name before => (defines.defined name).mpr (Or.inr before)
  have isNew : (files.middleware (redirectName state.application.appName data.uniqueConfigKey)).isSome = true :=
    (defines.defined _).mpr (Or.inl (List.mem_singleton_self _))
  have swaps : forall domain, state.Enabled domain -> Swaps independent _ _ := fun domain isEnabled =>
    serving_createRedirect fresh state rfl (takes domain isEnabled)
  refine ⟨sound, ?_, ?_, ?_, ?_⟩
  · exact steady.routers.map rfl (fun domain isEnabled entryPoint found alike =>
      alike.push rfl (takes domain isEnabled).1 (swaps domain isEnabled)) routers
  · intro domain isEnabled name member named
    rw [← (swaps domain isEnabled).mem_iff, pushed] at member
    split at member
    · exact grows name (steady.served domain isEnabled name member named)
    · rcases List.mem_append.mp member with old | new
      · exact grows name (steady.served domain isEnabled name old named)
      · rw [List.mem_singleton.mp new]
        exact isNew
  · intro redirect member
    rcases List.mem_append.mp member with old | new
    · exact grows _ (steady.redirects redirect old)
    · rw [List.mem_singleton.mp new]
      exact isNew
  · exact steady.gate.transfer rfl rfl (defines.same _ fun member =>
      authName_ne_redirectName (List.mem_singleton.mp member))

theorem Steady.removeRedirect (steady : Steady toPunycode independent state)
    (harmless : Harmless independent state (.removeRedirect data)) :
    Steady toPunycode independent { state with
      application := { state.application with
        redirects := state.application.redirects.filter fun other => other.uniqueConfigKey ≠ data.uniqueConfigKey }
      files := (Patched.removeRedirectMiddleware remote state.application.appName data state.files).getD
        state.files } := by
  rcases steady.sound.shared with ⟨config, isShared⟩
  rcases patchFiles_sound remote (removeRedirectMiddleware · state.application.appName data)
      (HttpRouter.drop (redirectName state.application.appName data.uniqueConfigKey))
      steady.sound isShared rfl with ⟨after, isAfter, sound, written, routers⟩
  have isFiles : (Patched.removeRedirectMiddleware remote state.application.appName data state.files).getD
      state.files = after := by
    rw [Patched.removeRedirectMiddleware]
    exact congrArg (Option.getD · state.files) isAfter
  rw [isFiles]
  have undefines : Undefines _ state.files after := undefines_deleteMiddlewares _ isShared written rfl
  have left : forall domain, state.Enabled domain -> (servingMiddlewares state.application domain).filter _ = _ :=
    fun domain isEnabled => serving_removeRedirect (harmless domain isEnabled)
  refine ⟨sound, ?_, ?_, ?_, ?_⟩
  · exact steady.routers.map rfl (fun domain isEnabled entryPoint found alike =>
      alike.drop rfl redirectName_ne_https (left domain isEnabled)) routers
  · intro domain isEnabled name member named
    rw [← left domain isEnabled] at member
    rcases List.mem_filter.mp member with ⟨listed, different⟩
    rw [undefines.same name fun own => of_decide_eq_true different (List.mem_singleton.mp own)]
    exact steady.served domain isEnabled name listed named
  · intro redirect member
    rcases List.mem_filter.mp member with ⟨known, different⟩
    have otherName : redirectName state.application.appName redirect.uniqueConfigKey ∉
        [redirectName state.application.appName data.uniqueConfigKey] := fun own =>
      of_decide_eq_true different (numbered_inj (List.mem_singleton.mp own)).2
    rw [undefines.same _ otherName]
    exact steady.redirects redirect known
  · exact steady.gate.transfer rfl rfl (undefines.same _ fun member =>
      authName_ne_redirectName (List.mem_singleton.mp member))

end Redirects

section Users

variable {toPunycode : String -> String} {independent : String -> String -> Prop} {state : Routing} {remote : Bool}
  {files : Files}

theorem userName_line (username hash : String) : userName (username ++ ":" ++ hash) = userName username := by
  have isColon : ":".toList = [':'] := by decide
  rw [userName, userName, String.toList_append, String.toList_append, isColon, List.append_assoc]
  refine congrArg String.ofList ?_
  induction username.toList with
  | nil => rfl
  | cons char rest ih =>
      rw [List.cons_append, List.takeWhile_cons, List.takeWhile_cons, ih]

variable {config : FileConfig}

theorem createSecurity_effect {application : Application} (data : Security) (hash : String)
    (isShared : files.shared = .parsed (some config)) (gate : HasGate application files)
    (hasSection : (config.http.bind (·.middlewares)).isSome = true) :
    Exists fun settings : BasicAuth =>
      createSecurityMiddleware (some config) application.appName (data.username ++ ":" ++ hash) =
          some (some (config.setMiddlewares [(authName application.appName, .basicAuth settings)])) ∧
        (settings.users.getD []).map userName =
          (application.security ++ [data]).map fun data => userName data.username := by
  rw [createSecurityMiddleware, if_pos hasSection]
  rw [HasGate, Files.middleware, isShared] at gate
  split at gate
  · rename_i noUsers
    rw [show getEntry config.middlewares (authName application.appName) = none from gate, noUsers]
    exact ⟨_, rfl, by simp [userName_line]⟩
  · rcases gate with ⟨settings, isGate, lines⟩
    rw [show getEntry config.middlewares (authName application.appName) = some (.basicAuth settings) from isGate]
    refine ⟨_, rfl, ?_⟩
    rw [Option.getD_some, List.map_append, List.map_append, lines, List.map_singleton, List.map_singleton, userName_line]

theorem Steady.createSecurity {data : Security} {hash : String} (steady : Steady toPunycode independent state)
    (harmless : Harmless independent state (.createSecurity data hash))
    (made : Patched.createSecurityMiddleware remote state.application.appName (data.username ++ ":" ++ hash)
      state.files = some files) :
    Steady toPunycode independent { state with
      application := { state.application with security := state.application.security ++ [data] }
      files := files } := by
  rcases steady.sound.shared with ⟨config, isShared⟩
  rcases harmless with ⟨hasSection, takes⟩
  rw [isShared_config isShared] at hasSection
  rcases createSecurity_effect data hash isShared steady.gate hasSection with
    ⟨settings, isMade, lines⟩
  rcases patchFiles_sound remote (createSecurityMiddleware · state.application.appName (data.username ++ ":" ++ hash))
      (HttpRouter.push (authName state.application.appName)) steady.sound isShared isMade with
    ⟨after, isAfter, sound, written, routers⟩
  rw [Patched.createSecurityMiddleware] at made
  cases made.symm.trans isAfter
  have defines : Defines _ state.files files := defines_setMiddlewares _ isShared written
  have grows : forall name, (state.files.middleware name).isSome = true -> (files.middleware name).isSome = true :=
    fun name before => (defines.defined name).mpr (Or.inr before)
  have swaps : forall domain, state.Enabled domain -> Swaps independent _ (servingMiddlewares
      { state.application with security := state.application.security ++ [data] } domain) :=
    fun domain isEnabled => serving_createSecurity state rfl (takes domain isEnabled)
  refine ⟨sound, ?_, ?_, fun redirect member => grows _ (steady.redirects redirect member), ?_⟩
  · exact steady.routers.map rfl (fun domain isEnabled entryPoint found alike =>
      alike.push rfl (takes domain isEnabled).1 (swaps domain isEnabled)) routers
  · intro domain isEnabled name member named
    rw [← (swaps domain isEnabled).mem_iff, pushed] at member
    split at member
    · exact grows name (steady.served domain isEnabled name member named)
    · rcases List.mem_append.mp member with old | new
      · exact grows name (steady.served domain isEnabled name old named)
      · rw [List.mem_singleton.mp new]
        exact (defines.defined _).mpr (Or.inl (List.mem_singleton_self _))
  · rw [HasGate, if_neg (List.append_ne_nil_of_right_ne_nil _ (List.cons_ne_nil data []))]
    refine ⟨settings, ?_, lines⟩
    rw [Files.middleware, written]
    exact getEntry_setEntry_self config.middlewares _ _

variable {username : String} {users : List Security}

theorem remaining_lines {lines : List String}
    (same : lines.map userName = users.map fun data => userName data.username)
    (plain : forall data, data ∈ users -> (userName data.username = username <-> data.username = username)) :
    (lines.filter fun line => userName line ≠ username).map userName =
      (users.filter fun data => data.username ≠ username).map fun data => userName data.username := by
  have onLines : (lines.filter fun line => userName line ≠ username).map userName =
      (lines.map userName).filter (· ≠ username) := by
    rw [List.filter_map]
    rfl
  rw [onLines, same, List.filter_map]
  refine congrArg (List.map _) (List.filter_congr fun data member => ?_)
  exact decide_eq_decide.mpr (not_congr (plain data member))

theorem createRouterConfig_of_users {application : Application} {domain : Domain}
    (entryPoint : String) (some : application.security ≠ []) (alsoSome : users ≠ []) :
    createRouterConfig toPunycode { application with security := users } domain entryPoint =
      createRouterConfig toPunycode application domain entryPoint := by
  simp only [createRouterConfig, serving_of_users some alsoSome]

theorem Steady.removeLastUser (steady : Steady toPunycode independent state)
    (isShared : state.files.shared = .parsed (some config)) (users : state.application.security ≠ [])
    (own : forall domain, state.Enabled domain ->
      gateName state.application.appName domain = authName state.application.appName ∧
        authName state.application.appName ∉ domain.custom)
    (removed : removeSecurityMiddleware (some config) state.application.appName username =
      some (some (config.deleteMiddlewares [authName state.application.appName])))
    (last : Patched.removesLastUser state.application.appName username state.files = true) :
    Steady toPunycode independent { state with
      application := { state.application with security := [] }
      files := (Patched.removeSecurityMiddleware remote state.application.appName username state.files).getD
        state.files } := by
  rcases patchFiles_sound remote (removeSecurityMiddleware · state.application.appName username)
      (HttpRouter.drop (authName state.application.appName)) steady.sound isShared removed with
    ⟨after, isAfter, sound, written, routers⟩
  have isFiles : (Patched.removeSecurityMiddleware remote state.application.appName username state.files).getD
      state.files = after := by
    rw [Patched.removeSecurityMiddleware]
    refine (congrArg (fun patched => (Option.map _ patched).getD state.files) isAfter).trans ?_
    rw [Option.map_some, Option.getD_some, if_pos last]
  rw [isFiles]
  have undefines : Undefines _ state.files after := undefines_deleteMiddlewares _ isShared written rfl
  have left : forall domain, state.Enabled domain -> (servingMiddlewares state.application domain).filter _ = _ :=
    fun domain isEnabled => serving_lastUser users (own domain isEnabled).1 (own domain isEnabled).2
  refine ⟨sound, ?_, ?_, ?_, ?_⟩
  · exact steady.routers.map rfl (fun domain isEnabled entryPoint found alike =>
      alike.drop rfl (by
        intro same
        have kind := kindOf_authName state.application.appName
        rw [same] at kind
        exact absurd kind (by decide)) (left domain isEnabled)) routers
  · intro domain isEnabled name member named
    rw [← left domain isEnabled] at member
    rcases List.mem_filter.mp member with ⟨listed, different⟩
    rw [undefines.same name fun isGate => of_decide_eq_true different (List.mem_singleton.mp isGate)]
    exact steady.served domain isEnabled name listed named
  · intro redirect member
    rw [undefines.same _ fun isGate => authName_ne_redirectName (List.mem_singleton.mp isGate).symm]
    exact steady.redirects redirect member
  · rw [HasGate, if_pos rfl]
    exact undefines.gone _ (List.mem_singleton_self _)

theorem Steady.removeOneUser (settings : BasicAuth)
    (steady : Steady toPunycode independent state) (isShared : state.files.shared = .parsed (some config))
    (before : state.application.security ≠ []) (left : users ≠ [])
    (lines : (settings.users.getD []).map userName = users.map fun data => userName data.username)
    (removed : removeSecurityMiddleware (some config) state.application.appName username =
      some (some (config.setMiddlewares [(authName state.application.appName, .basicAuth settings)])))
    (notLast : Patched.removesLastUser state.application.appName username state.files = false) :
    Steady toPunycode independent { state with
      application := { state.application with security := users }
      files := (Patched.removeSecurityMiddleware remote state.application.appName username state.files).getD
        state.files } := by
  rcases patchFiles_sound remote (removeSecurityMiddleware · state.application.appName username)
      (HttpRouter.drop (authName state.application.appName)) steady.sound isShared removed with
    ⟨after, isAfter, sound, written, routers⟩
  have isFiles : (Patched.removeSecurityMiddleware remote state.application.appName username state.files).getD
      state.files = { after with app := state.files.app } := by
    rw [Patched.removeSecurityMiddleware]
    refine (congrArg (fun patched => (Option.map _ patched).getD state.files) isAfter).trans ?_
    rw [Option.map_some, Option.getD_some, if_neg (by rw [notLast]; exact Bool.false_ne_true)]
  rw [isFiles]
  have defines : Defines _ state.files { after with app := state.files.app } :=
    defines_setMiddlewares _ isShared written
  have grows := fun name before => (defines.defined name).mpr (Or.inr before)
  refine ⟨⟨steady.sound.app, sound.shared⟩, ?_, ?_, fun redirect member => grows _ (steady.redirects redirect member), ?_⟩
  · have same : forall name, Files.router { after with app := state.files.app } name =
        (state.files.router name).map id := by
      intro name
      rw [Option.map_id]
      rfl
    refine steady.routers.map rfl (fun domain _ entryPoint found alike => ?_) same
    rw [createRouterConfig_of_users entryPoint before left]
    exact alike
  · intro domain isEnabled name member named
    rw [serving_of_users before left] at member
    exact grows name (steady.served domain isEnabled name member named)
  · rw [HasGate, if_neg left]
    refine ⟨settings, ?_, lines⟩
    rw [Files.middleware, written]
    exact getEntry_setEntry_self config.middlewares _ _

theorem Steady.removeSecurity (steady : Steady toPunycode independent state)
    (present : username ∈ state.application.security.map Security.username)
    (harmless : Harmless independent state (.removeSecurity username)) :
    Steady toPunycode independent { state with
      application := { state.application with
        security := state.application.security.filter fun data => data.username ≠ username }
      files := (Patched.removeSecurityMiddleware remote state.application.appName username state.files).getD
        state.files } := by
  have users : state.application.security ≠ [] := by
    intro none
    rw [none] at present
    cases present
  rcases steady.sound.shared with ⟨config, isShared⟩
  have gate := steady.gate
  rw [HasGate, if_neg users] at gate
  rcases gate with ⟨settings, isGate, lines⟩
  rw [Files.middleware, isShared_config isShared] at isGate
  have remaining : remainingUsers config state.application.appName username =
      some (settings, (settings.users.getD []).filter fun line => userName line ≠ username) := by
    rw [remainingUsers, isGate]
  have left := remaining_lines lines harmless.1
  have lastIf : Patched.removesLastUser state.application.appName username state.files =
      ((settings.users.getD []).filter fun line => userName line ≠ username).isEmpty := by
    rw [Patched.removesLastUser, isShared_config isShared, remaining]
    cases (settings.users.getD []).filter fun line => userName line ≠ username with
    | nil => rfl
    | cons _ _ => rfl
  cases kept : (settings.users.getD []).filter fun line => userName line ≠ username with
  | nil =>
      rw [kept] at remaining left lastIf
      have noUsers : (state.application.security.filter fun data => data.username ≠ username) = [] :=
        List.map_eq_nil_iff.mp left.symm
      rw [noUsers]
      refine steady.removeLastUser isShared users (harmless.2 fun data member => ?_) ?_ lastIf
      · have gone := List.filter_eq_nil_iff.mp noUsers data member
        exact Decidable.byContradiction fun different => gone (decide_eq_true different)
      · rw [removeSecurityMiddleware, remaining]
  | cons line rest =>
      rw [kept] at remaining left lastIf
      refine steady.removeOneUser { settings with users := some (line :: rest) } isShared users
        (fun noUsers => ?_) left ?_ lastIf
      · rw [noUsers] at left
        cases left
      · rw [removeSecurityMiddleware, remaining]

end Users

/-- The files of a new application: no router is there, and nothing in the shared file is named after it. -/
structure FreshFiles (appName : String) (files : Files) : Prop where
  sound : Sound files
  noRouters : forall name, files.router name = none
  noMiddlewares : forall name, NamedAfter appName name -> files.middleware name = none

theorem steady_step {toPunycode : String -> String} {independent : String -> String -> Prop} {remote : Bool}
    {state after : Routing} {operation : Operation} {output : List Operation}
    (steady : Steady toPunycode independent state) (harmless : Harmless independent state operation)
    (stepped : state.step toPunycode remote operation = some (after, output)) :
    Steady toPunycode independent after := by
  cases operation with
  | manageDomain domain authGate =>
      cases stepped
      cases enabled : domain.enabled with
      | true =>
          rw [Harmless, enabled, if_pos rfl] at harmless
          exact steady.manage enabled harmless
      | false =>
          rw [Harmless, enabled, if_neg Bool.false_ne_true] at harmless
          rw [Fallible.manageDomain, enabled, if_neg Bool.false_ne_true]
          refine steady.remove harmless fun other => ?_
          rw [Routing.Enabled, mem_setDomain, Routing.Enabled]
          constructor
          · rintro ⟨isDomain | ⟨member, different⟩, isEnabled⟩
            · rw [isDomain, enabled] at isEnabled
              cases isEnabled
            · exact ⟨⟨member, isEnabled⟩, different⟩
          · rintro ⟨⟨member, isEnabled⟩, different⟩
            exact ⟨Or.inr ⟨member, different⟩, isEnabled⟩
  | removeDomain key =>
      cases stepped
      refine steady.remove harmless fun other => ?_
      rw [Routing.Enabled, deleteDomain, List.mem_filter, decide_eq_true_iff, Routing.Enabled]
      exact and_right_comm
  | createSecurity data hash =>
      simp only [Routing.step] at stepped
      split at stepped
      · cases stepped
      · rcases Option.map_eq_some_iff.mp stepped with ⟨files, made, isAfter⟩
        cases isAfter
        exact steady.createSecurity harmless made
  | removeSecurity username =>
      simp only [Routing.step] at stepped
      split at stepped
      · rename_i present
        cases stepped
        exact steady.removeSecurity present harmless
      · cases stepped
  | createRedirect data =>
      simp only [Routing.step] at stepped
      split at stepped
      · cases stepped
      · rename_i fresh
        rcases Option.map_eq_some_iff.mp stepped with ⟨files, made, isAfter⟩
        cases isAfter
        exact steady.createRedirect fresh harmless made
  | removeRedirect data =>
      simp only [Routing.step] at stepped
      split at stepped
      · cases stepped
        exact steady.removeRedirect harmless
      · cases stepped

theorem steady_start (toPunycode : String -> String) (independent : String -> String -> Prop) (remote : Bool)
    {appName : String} {files : Files} (fresh : FreshFiles appName files) :
    Steady toPunycode independent (Routing.machine toPunycode remote appName files).initial where
  sound := fresh.sound
  routers := {
    plain := fun _ enabled => absurd enabled.1 List.not_mem_nil
    secure := fun _ enabled => absurd enabled.1 List.not_mem_nil
    only := by
      intro name isSome
      have none : (Routing.machine toPunycode remote appName files).initial.files.router name = none :=
        fresh.noRouters name
      rw [none] at isSome
      cases isSome }
  served := fun _ enabled => absurd enabled.1 List.not_mem_nil
  redirects := fun _ member => absurd member List.not_mem_nil
  gate := by
    have noUsers : (Routing.machine toPunycode remote appName files).initial.application.security = [] := rfl
    rw [HasGate, if_pos noUsers]
    exact fresh.noMiddlewares _ NamedAfter.auth

/-- In a run of harmless operations the file always has the routers that would be made from the database. -/
theorem routers_agree_of_run (toPunycode : String -> String) (independent : String -> String -> Prop) (remote : Bool)
    {appName : String} {files : Files} (fresh : FreshFiles appName files) {history : List Operation} {state : Routing}
    (run : (Routing.machine toPunycode remote appName files).Run (Harmless independent) history state) :
    Agrees toPunycode independent state := by
  refine Steady.agrees (run.invariant (fun _ state => Steady toPunycode independent state)
    (steady_start toPunycode independent remote fresh) ?_)
  intro _ state operation after output _ steady harmless stepped
  exact steady_step steady harmless stepped

def secureDomain : Domain :=
  { plainDomain 1 with https := true, certificateType := .letsencrypt }

def wwwRedirect : Redirect := { uniqueConfigKey := 1, regex := "www", replacement := "", permanent := true }

/-- A server whose shared file has what the setup writes into it. -/
def newServer : Files where
  app := .missing
  shared := .parsed (some { http := some { middlewares := some [("redirect-to-https", .other "redirectScheme")] } })

theorem freshFiles_newServer : FreshFiles "app" newServer where
  sound := ⟨(fun _ isText => nomatch isText), ⟨_, rfl⟩⟩
  noRouters := fun _ => rfl
  noMiddlewares := by
    intro name named
    refine getEntry_of_missing fun member => ?_
    rw [List.mem_singleton.mp member] at named
    rcases named.kinds with ⟨kind, _⟩ | ⟨_, key, isRedirect⟩ | ⟨kind, _⟩ | ⟨kind, _⟩ | ⟨kind, _⟩
    · exact absurd kind (by decide)
    · exact absurd isRedirect.symm redirectName_ne_https
    · exact absurd kind (by decide)
    · exact absurd kind (by decide)
    · exact absurd kind (by decide)

/-- The web router of an HTTPS domain only redirects, until a redirect of the application is added: whatever may be
exchanged, its list is no longer that of a new router. -/
theorem wwwRedirect_disagrees : FreshFiles "app" newServer ∧ Exists fun history => Exists fun state =>
    (Routing.machine id true "app" newServer).Reaches history state ∧
      history = [.manageDomain secureDomain none, .createRedirect wwwRedirect] ∧
        ¬ Agrees id (fun _ _ => True) state := by
  have run : (Routing.machine id true "app" newServer).Reaches _ _ := @Machine.run_of_executes _ _ _
    (Routing.machine id true "app" newServer) _ (fun _ _ => true) (fun _ _ _ => trivial)
    [.manageDomain secureDomain none, .createRedirect wwwRedirect] (by decide)
  refine ⟨freshFiles_newServer, _, _, run, by decide, fun agrees => ?_⟩
  rcases agrees.plain secureDomain ⟨by decide, rfl⟩ with ⟨found, isFound, middlewares, isAlike, swaps⟩
  have lists := congrArg (Option.map HttpRouter.middlewares) isFound
  rw [isAlike, Option.map_some] at lists
  have isList : some middlewares = some ["redirect-to-https", "redirect-app-1"] :=
    (Option.some.inj lists).symm.trans (by decide)
  rw [Option.some.inj isList] at swaps
  exact absurd swaps.perm.length_eq (by decide)

/-- A test for the condition, on domains that have nothing but their host. -/
def plainTest (state : Routing) : Operation -> Bool
  | .manageDomain domain _ => domain.enabled && !domain.forwardAuthEnabled && domain.custom = []
  | .createRedirect _ =>
      state.files.shared.config.http.isSome && state.application.security = [] &&
        state.domains.all fun domain =>
          !domain.redirectsToHttps && !domain.isPreview && !domain.forwardAuthEnabled && domain.custom = []
  | _ => false

theorem plainTest_sound (independent : String -> String -> Prop) (state : Routing) (operation : Operation)
    (tested : plainTest state operation = true) : Harmless independent state operation := by
  cases operation with
  | manageDomain domain authGate =>
      simp only [plainTest, Bool.and_eq_true, Bool.not_eq_true', decide_eq_true_eq] at tested
      rcases tested with ⟨⟨enabled, noLogin⟩, noCustom⟩
      rw [Harmless, enabled, if_pos rfl, noLogin, noCustom]
      exact ⟨fun impossible => absurd impossible Bool.false_ne_true, fun _ member => absurd member List.not_mem_nil⟩
  | createRedirect data =>
      simp only [plainTest, Bool.and_eq_true, Bool.not_eq_true', decide_eq_true_eq, List.all_eq_true] at tested
      rcases tested with ⟨⟨hasHttp, noUsers⟩, plain⟩
      refine ⟨hasHttp, fun domain enabled => ?_⟩
      rcases plain domain enabled.1 with ⟨⟨⟨quiet, notPreview⟩, noLogin⟩, noCustom⟩
      refine ⟨quiet, ?_⟩
      rw [notPreview, if_neg Bool.false_ne_true, noCustom, gateNames, if_pos noUsers, loginNames, noLogin,
        if_neg Bool.false_ne_true]
      exact ⟨List.not_mem_nil, fun _ member => absurd member List.not_mem_nil⟩
  | _ => cases tested

/-- On plain connections a redirect comes where a new router has it, even if no two middlewares may be exchanged. -/
theorem plainRedirect_agrees : Exists fun state =>
    (Routing.machine id true "app" newServer).Reaches
      [.manageDomain (plainDomain 1) none, .createRedirect wwwRedirect] state ∧
        (state.files.router "app-router-1").map HttpRouter.middlewares = some (some ["redirect-app-1"]) ∧
          Agrees id (fun _ _ => False) state := by
  have run : (Routing.machine id true "app" newServer).Run (Harmless fun _ _ => False) _ _ := @Machine.run_of_executes
    _ _ _ (Routing.machine id true "app" newServer) _ plainTest (plainTest_sound _)
    [.manageDomain (plainDomain 1) none, .createRedirect wwwRedirect] (by decide)
  exact ⟨_, run.weaken, by decide, routers_agree_of_run id _ true freshFiles_newServer run⟩

end Traefik
end Dokploy
