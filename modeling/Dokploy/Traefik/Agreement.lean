import Dokploy.Traefik.FileEffects

namespace Dokploy
namespace Traefik

open Foundation

/-!
# Patched routers agree with regenerated ones

The invariant says of each enabled domain that its routers are those that would be
made now, and that the application's middlewares which they name are defined.  It
also says of the redirects and users what the next domain will rely on.
-/

section Names

variable {application : Application} {domain : Domain} {name : String}

variable {appName : String}

theorem kindOf_pathNames (named : name ∈ pathNames appName domain) :
    name ∈ domainMiddlewares appName domain.uniqueConfigKey ∧ (kindOf name = ['s', 't'] ∨ kindOf name = ['a', 'd']) := by
  rcases List.mem_append.mp named with stripped | added
  · rcases Option.map_eq_some_iff.mp (Option.mem_toList.mp stripped) with ⟨_, _, isName⟩
    rw [← isName, kindOf_stripPrefixName]
    exact ⟨List.mem_cons_of_mem _ List.mem_cons_self, Or.inl rfl⟩
  · rcases Option.map_eq_some_iff.mp (Option.mem_toList.mp added) with ⟨_, _, isName⟩
    rw [← isName, kindOf_addPrefixName]
    exact ⟨List.mem_cons_self, Or.inr rfl⟩

theorem kindOf_redirectNames (named : name ∈ redirectNames application domain) :
    kindOf name = ['r', 'e'] ∧ domain.isPreview = false ∧ Exists fun redirect =>
      redirect ∈ application.redirects ∧ name = redirectName application.appName redirect.uniqueConfigKey := by
  unfold redirectNames at named
  split at named
  · cases named
  · rename_i served
    rcases List.mem_map.mp named with ⟨redirect, member, isName⟩
    rw [← isName, kindOf_redirectName]
    exact ⟨rfl, Bool.eq_false_iff.mpr served, redirect, member, rfl⟩

theorem kindOf_gateNames (named : name ∈ gateNames application domain) :
    kindOf name = ['a', 'u'] ∧ application.security ≠ [] ∧ name = gateName application.appName domain := by
  unfold gateNames at named
  split at named
  · cases named
  · rename_i users
    rw [List.mem_singleton.mp named]
    exact ⟨kindOf_authName _, users, rfl⟩

theorem kindOf_loginNames (named : name ∈ loginNames appName domain) :
    name ∈ domainMiddlewares appName domain.uniqueConfigKey ∧ kindOf name = ['f', 'o'] := by
  unfold loginNames at named
  split at named
  · rcases List.mem_cons.mp named with first | rest
    · rw [first, kindOf_forwardAuthErrorsName]
      exact ⟨by simp [domainMiddlewares], rfl⟩
    · rw [List.mem_singleton.mp rest, kindOf_forwardAuthMiddlewareName]
      exact ⟨by simp [domainMiddlewares], rfl⟩
  · cases named

variable {key : Nat}

theorem kindOf_domainMiddlewares (named : name ∈ domainMiddlewares appName key) :
    (kindOf name = ['a', 'd'] ∧ name = addPrefixName appName key) ∨
      (kindOf name = ['s', 't'] ∧ name = stripPrefixName appName key) ∨
      (kindOf name = ['f', 'o'] ∧
        (name = forwardAuthMiddlewareName appName key ∨ name = forwardAuthErrorsName appName key)) := by
  simp only [domainMiddlewares, List.mem_cons, List.not_mem_nil, or_false] at named
  rcases named with isName | isName | isName | isName
  · rw [isName]
    exact Or.inl ⟨kindOf_addPrefixName appName key, rfl⟩
  · rw [isName]
    exact Or.inr (Or.inl ⟨kindOf_stripPrefixName appName key, rfl⟩)
  · rw [isName]
    exact Or.inr (Or.inr ⟨kindOf_forwardAuthMiddlewareName appName key, Or.inl rfl⟩)
  · rw [isName]
    exact Or.inr (Or.inr ⟨kindOf_forwardAuthErrorsName appName key, Or.inr rfl⟩)

theorem redirectName_not_domain {other : String} {number : Nat} :
    redirectName appName number ∉ domainMiddlewares other key := by
  intro named
  rcases kindOf_domainMiddlewares named with ⟨kind, _⟩ | ⟨kind, _⟩ | ⟨kind, _⟩ <;>
    exact absurd ((kindOf_redirectName appName number).symm.trans kind) (by decide)

theorem authName_not_domain {other : String} : authName appName ∉ domainMiddlewares other key := by
  intro named
  rcases kindOf_domainMiddlewares named with ⟨kind, _⟩ | ⟨kind, _⟩ | ⟨kind, _⟩ <;>
    exact absurd ((kindOf_authName appName).symm.trans kind) (by decide)

theorem authName_ne_redirectName {other : String} : authName appName ≠ redirectName other key := by
  intro same
  exact absurd ((kindOf_authName appName).symm.trans ((congrArg kindOf same).trans (kindOf_redirectName other key)))
    (by decide)

theorem domainMiddlewares_disjoint {other : Nat} (different : other ≠ key)
    (named : name ∈ domainMiddlewares appName other) : name ∉ domainMiddlewares appName key := by
  intro alsoNamed
  rcases kindOf_domainMiddlewares named with ⟨kind, first⟩ | ⟨kind, first⟩ | ⟨kind, first⟩ <;>
    rcases kindOf_domainMiddlewares alsoNamed with ⟨sameKind, second⟩ | ⟨sameKind, second⟩ | ⟨sameKind, second⟩ <;>
    rw [kind] at sameKind <;> try cases sameKind
  · exact different (numbered_inj (first.symm.trans second)).2
  · exact different (numbered_inj (first.symm.trans second)).2
  · rcases first with first | first
    · rcases second with second | second
      · exact different (numbered_inj (first.symm.trans second)).2
      · exact errors_ne_numbered (first.symm.trans second)
    · rcases second with second | second
      · exact errors_ne_numbered (second.symm.trans first)
      · have characters := congrArg String.toList (first.symm.trans second)
        simp only [forwardAuthErrorsName, String.toList_append] at characters
        exact different (numbered_inj (String.toList_inj.mp (List.append_cancel_right characters))).2

theorem redirectName_ne_https : redirectName appName key ≠ "redirect-to-https" := by
  intro same
  have characters := congrArg (fun text : String => text.toList.getLast?) same
  simp only [redirectName, String.toList_append, toList_toString] at characters
  rw [List.getLast?_append_of_ne_nil _ (Numerals.decimal_ne_nil key)] at characters
  rcases List.getLast?_eq_some_iff.mp (characters.trans (by decide : _ = some 's')) with ⟨_, isDecimal⟩
  have member : 's' ∈ Numerals.decimal key := by
    rw [isDecimal]
    exact List.mem_append_right _ List.mem_cons_self
  exact absurd (Numerals.isDigit_of_mem_decimal member) (by decide)

end Names

section Serving

variable {independent : String -> String -> Prop} {application : Application} {domain : Domain}

/-- What `push` makes of a list of middlewares. -/
def pushed (name : String) (middlewares : List String) : List String :=
  if name ∈ middlewares then middlewares else middlewares ++ [name]

theorem filter_of_missing {name : String} {names : List String} (missing : name ∉ names) :
    names.filter (· ≠ name) = names := by
  apply List.filter_eq_self.mpr
  intro other member
  apply decide_eq_true
  intro same
  exact missing (same ▸ member)

theorem serving_split (application : Application) (domain : Domain) :
    servingMiddlewares application domain =
      (pathNames application.appName domain ++ redirectNames application domain) ++
        (gateNames application domain ++ loginNames application.appName domain ++ domain.custom) := by
  simp only [servingMiddlewares, List.append_assoc]

theorem redirect_not_serving {data : Redirect}
    (fresh : data.uniqueConfigKey ∉ application.redirects.map Redirect.uniqueConfigKey)
    (notCustom : redirectName application.appName data.uniqueConfigKey ∉ domain.custom) :
    redirectName application.appName data.uniqueConfigKey ∉ servingMiddlewares application domain := by
  have kind := kindOf_redirectName application.appName data.uniqueConfigKey
  rw [serving_split]
  simp only [List.mem_append]
  rintro ((path | redirect) | ((gate | login) | custom))
  · rcases (kindOf_pathNames path).2 with other | other <;> exact absurd (kind.symm.trans other) (by decide)
  · rcases (kindOf_redirectNames redirect).2.2 with ⟨old, member, same⟩
    exact fresh (List.mem_map.mpr ⟨old, member, (numbered_inj same).2.symm⟩)
  · exact absurd (kind.symm.trans (kindOf_gateNames gate).1) (by decide)
  · exact absurd (kind.symm.trans (kindOf_loginNames login).2) (by decide)
  · exact notCustom custom

theorem serving_createRedirect {data : Redirect}
    (fresh : data.uniqueConfigKey ∉ application.redirects.map Redirect.uniqueConfigKey)
    (state : Routing) (isApplication : state.application = application)
    (takes : TakesRedirect independent state (redirectName application.appName data.uniqueConfigKey) domain) :
    Swaps independent (pushed (redirectName application.appName data.uniqueConfigKey)
        (servingMiddlewares application domain))
      (servingMiddlewares { application with redirects := application.redirects ++ [data] } domain) := by
  have takes := takes.2
  split at takes
  · rename_i preview
    have present : redirectName application.appName data.uniqueConfigKey ∈ servingMiddlewares application domain :=
      List.mem_append_right _ takes
    rw [pushed, if_pos present]
    simp only [servingMiddlewares, redirectNames, if_pos preview]
    exact Swaps.refl _
  · rename_i served
    rw [pushed, if_neg (redirect_not_serving fresh takes.1), serving_split, serving_split]
    have added : redirectNames { application with redirects := application.redirects ++ [data] } domain =
        redirectNames application domain ++ [redirectName application.appName data.uniqueConfigKey] := by
      simp only [redirectNames, if_neg served, List.map_append, List.map_cons, List.map_nil]
    rw [isApplication] at takes
    rw [added, ← List.append_assoc (pathNames _ _)]
    exact Swaps.insert _ _ _ takes.2

theorem serving_removeRedirect {data : Redirect}
    (notCustom : redirectName application.appName data.uniqueConfigKey ∉ domain.custom) :
    (servingMiddlewares application domain).filter (· ≠ redirectName application.appName data.uniqueConfigKey) =
      servingMiddlewares { application with
        redirects := application.redirects.filter fun other => other.uniqueConfigKey ≠ data.uniqueConfigKey } domain := by
  have kind := kindOf_redirectName application.appName data.uniqueConfigKey
  have redirects : (redirectNames application domain).filter
      (· ≠ redirectName application.appName data.uniqueConfigKey) =
      redirectNames { application with
        redirects := application.redirects.filter fun other => other.uniqueConfigKey ≠ data.uniqueConfigKey } domain := by
    unfold redirectNames
    split
    · rfl
    · rw [List.filter_map]
      refine congrArg (List.map _) (List.filter_congr fun other _ => ?_)
      exact decide_eq_decide.mpr (not_congr ⟨fun same => (numbered_inj same).2, congrArg (redirectName _)⟩)
  simp only [servingMiddlewares, List.filter_append]
  rw [redirects, filter_of_missing notCustom, filter_of_missing, filter_of_missing, filter_of_missing]
  · rfl
  · exact fun login => absurd (kind.symm.trans (kindOf_loginNames login).2) (by decide)
  · exact fun gate => absurd (kind.symm.trans (kindOf_gateNames gate).1) (by decide)
  · intro path
    rcases (kindOf_pathNames path).2 with other | other <;> exact absurd (kind.symm.trans other) (by decide)

theorem gate_not_serving (noUsers : application.security = [])
    (notCustom : authName application.appName ∉ domain.custom) :
    authName application.appName ∉ servingMiddlewares application domain := by
  have kind := kindOf_authName application.appName
  rw [serving_split]
  simp only [List.mem_append]
  rintro ((path | redirect) | ((gate | login) | custom))
  · rcases (kindOf_pathNames path).2 with other | other <;> exact absurd (kind.symm.trans other) (by decide)
  · exact absurd (kind.symm.trans (kindOf_redirectNames redirect).1) (by decide)
  · exact (kindOf_gateNames gate).2.1 noUsers
  · exact absurd (kind.symm.trans (kindOf_loginNames login).2) (by decide)
  · exact notCustom custom

theorem serving_of_users {users : List Security} (some : application.security ≠ []) (alsoSome : users ≠ []) :
    servingMiddlewares { application with security := users } domain = servingMiddlewares application domain := by
  simp only [servingMiddlewares, gateNames, redirectNames, if_neg some, if_neg alsoSome]

theorem serving_createSecurity {data : Security} (state : Routing) (isApplication : state.application = application)
    (takes : TakesGate independent state domain) :
    Swaps independent (pushed (authName application.appName) (servingMiddlewares application domain))
      (servingMiddlewares { application with security := application.security ++ [data] } domain) := by
  have takes := takes.2
  rw [isApplication] at takes
  split at takes
  · rename_i noUsers
    rcases takes with ⟨own, notCustom, allowed⟩
    rw [pushed, if_neg (gate_not_serving noUsers notCustom), serving_split, serving_split]
    have none : gateNames application domain = [] := if_pos noUsers
    have gate : gateNames { application with security := application.security ++ [data] } domain =
        [authName application.appName] := by
      rw [← own]
      exact if_neg (List.append_ne_nil_of_right_ne_nil _ (List.cons_ne_nil data []))
    rw [none, gate, List.nil_append, List.append_assoc [_], ← List.append_assoc _ [_]]
    exact Swaps.insert _ _ _ allowed
  · rename_i users
    have present : authName application.appName ∈ servingMiddlewares application domain := by
      rw [serving_split]
      refine List.mem_append_right _ ?_
      rcases takes with own | custom
      · refine List.mem_append_left _ (List.mem_append_left _ ?_)
        rw [gateNames, if_neg users, own]
        exact List.mem_singleton_self _
      · exact List.mem_append_right _ custom
    rw [pushed, if_pos present,
      serving_of_users users (List.append_ne_nil_of_right_ne_nil _ (List.cons_ne_nil data []))]
    exact Swaps.refl _

theorem serving_lastUser (users : application.security ≠ [])
    (own : gateName application.appName domain = authName application.appName)
    (notCustom : authName application.appName ∉ domain.custom) :
    (servingMiddlewares application domain).filter (· ≠ authName application.appName) =
      servingMiddlewares { application with security := [] } domain := by
  have kind := kindOf_authName application.appName
  have gate : gateNames application domain = [authName application.appName] := by rw [gateNames, if_neg users, own]
  have gone : [authName application.appName].filter (· ≠ authName application.appName) = [] := by simp
  simp only [servingMiddlewares, List.filter_append]
  rw [gate, gone, filter_of_missing notCustom, filter_of_missing, filter_of_missing, filter_of_missing]
  · rfl
  · exact fun login => absurd (kind.symm.trans (kindOf_loginNames login).2) (by decide)
  · exact fun redirect => absurd (kind.symm.trans (kindOf_redirectNames redirect).1) (by decide)
  · intro path
    rcases (kindOf_pathNames path).2 with other | other <;> exact absurd (kind.symm.trans other) (by decide)

end Serving

section Routers

variable {toPunycode : String -> String} {independent : String -> String -> Prop}
  {application changed : Application} {domain : Domain}

theorem Alike.refl (toPunycode : String -> String) (application : Application) (domain : Domain) (entryPoint : String) :
    Alike independent (createRouterConfig toPunycode application domain entryPoint)
      (createRouterConfig toPunycode application domain entryPoint) :=
  ⟨_, rfl, Swaps.refl _⟩

theorem Alike.push {found : HttpRouter} {entryPoint name : String}
    (alike : Alike independent found (createRouterConfig toPunycode application domain entryPoint))
    (sameName : changed.appName = application.appName) (quiet : domain.redirectsToHttps = false)
    (swaps : Swaps independent (pushed name (servingMiddlewares application domain))
      (servingMiddlewares changed domain)) :
    Alike independent (found.push name) (createRouterConfig toPunycode changed domain entryPoint) := by
  have serves : forall application, (createRouterConfig toPunycode application domain entryPoint).middlewares =
      some (servingMiddlewares application domain) := by
    intro application
    rw [createRouterConfig, if_neg]
    rintro ⟨_, redirects⟩
    rw [quiet] at redirects
    cases redirects
  rcases alike with ⟨middlewares, isFound, same⟩
  rw [serves, Option.getD_some] at same
  refine ⟨pushed name middlewares, ?_, ?_⟩
  · rw [isFound]
    simp only [HttpRouter.push, createRouterConfig, sameName]
    rfl
  · rw [serves, Option.getD_some]
    refine Swaps.next ?_ swaps
    unfold pushed
    by_cases member : name ∈ middlewares
    · rw [if_pos member, if_pos ((same.mem_iff name).mp member)]
      exact same
    · rw [if_neg member, if_neg fun present => member ((same.mem_iff name).mpr present)]
      exact same.append_right [name]

theorem Alike.drop {found : HttpRouter} {entryPoint name : String}
    (alike : Alike independent found (createRouterConfig toPunycode application domain entryPoint))
    (sameName : changed.appName = application.appName) (notHttps : name ≠ "redirect-to-https")
    (left : (servingMiddlewares application domain).filter (· ≠ name) = servingMiddlewares changed domain) :
    Alike independent (found.drop name) (createRouterConfig toPunycode changed domain entryPoint) := by
  rcases alike with ⟨middlewares, isFound, same⟩
  refine ⟨middlewares.filter (· ≠ name), ?_, ?_⟩
  · rw [isFound]
    simp only [HttpRouter.drop, createRouterConfig, sameName, Option.map_some]
  · have filtered := same.filter fun other => decide (other ≠ name)
    simp only [createRouterConfig, Option.getD_some] at filtered ⊢
    split at filtered
    · rename_i redirects
      rw [if_pos redirects]
      rw [filter_of_missing (fun member => notHttps (List.mem_singleton.mp member))] at filtered
      exact filtered
    · rename_i serves
      rw [if_neg serves, ← left]
      exact filtered

/-- The routers that are there are those of the enabled domains. -/
structure RoutersAgree (toPunycode : String -> String) (independent : String -> String -> Prop)
    (application : Application) (enabled : Domain -> Prop) (router : String -> Option HttpRouter) : Prop where
  plain : forall domain, enabled domain -> Exists fun found =>
    router (routerName application.appName domain.uniqueConfigKey) = some found ∧
      Alike independent found
        (createRouterConfig toPunycode application domain (domain.ownEntryPoint.getD "web"))
  secure : forall domain, enabled domain -> domain.hasSecureRouter = true -> Exists fun found =>
    router (routerNameSecure application.appName domain.uniqueConfigKey) = some found ∧
      Alike independent found (createRouterConfig toPunycode application domain "websecure")
  only : forall name, (router name).isSome = true -> Exists fun domain => enabled domain ∧
    (name = routerName application.appName domain.uniqueConfigKey ∨
      (domain.hasSecureRouter = true ∧ name = routerNameSecure application.appName domain.uniqueConfigKey))

variable {enabled after : Domain -> Prop} {router later : String -> Option HttpRouter}

theorem RoutersAgree.map {change : HttpRouter -> HttpRouter}
    (agree : RoutersAgree toPunycode independent application enabled router)
    (sameName : changed.appName = application.appName)
    (alike : forall domain, enabled domain -> forall entryPoint found,
      Alike independent found (createRouterConfig toPunycode application domain entryPoint) ->
        Alike independent (change found) (createRouterConfig toPunycode changed domain entryPoint))
    (mapped : forall name, later name = (router name).map change) :
    RoutersAgree toPunycode independent changed enabled later where
  plain := by
    intro domain isEnabled
    rcases agree.plain domain isEnabled with ⟨found, isFound, same⟩
    exact ⟨change found, by rw [mapped, sameName, isFound, Option.map_some], alike domain isEnabled _ found same⟩
  secure := by
    intro domain isEnabled hasSecure
    rcases agree.secure domain isEnabled hasSecure with ⟨found, isFound, same⟩
    exact ⟨change found, by rw [mapped, sameName, isFound, Option.map_some], alike domain isEnabled _ found same⟩
  only := by
    intro name isSome
    rw [mapped, Option.isSome_map] at isSome
    rw [sameName]
    exact agree.only name isSome

theorem RoutersAgree.remove {key : Nat} (agree : RoutersAgree toPunycode independent application enabled router)
    (isAfter : forall domain, after domain <-> enabled domain ∧ domain.uniqueConfigKey ≠ key)
    (gonePlain : later (routerName application.appName key) = none)
    (goneSecure : later (routerNameSecure application.appName key) = none)
    (same : forall name, name ≠ routerName application.appName key -> name ≠ routerNameSecure application.appName key ->
      later name = router name) :
    RoutersAgree toPunycode independent application after later where
  plain := by
    intro domain isEnabled
    rcases (isAfter domain).mp isEnabled with ⟨before, different⟩
    rw [same _ (routerName_ne different) routerName_ne_secure]
    exact agree.plain domain before
  secure := by
    intro domain isEnabled hasSecure
    rcases (isAfter domain).mp isEnabled with ⟨before, different⟩
    rw [same _ routerName_ne_secure.symm (routerNameSecure_ne different)]
    exact agree.secure domain before hasSecure
  only := by
    intro name isSome
    have notPlain : name ≠ routerName application.appName key := by
      intro isPlain
      rw [isPlain, gonePlain] at isSome
      cases isSome
    have notSecure : name ≠ routerNameSecure application.appName key := by
      intro isSecure
      rw [isSecure, goneSecure] at isSome
      cases isSome
    rw [same name notPlain notSecure] at isSome
    rcases agree.only name isSome with ⟨domain, before, named⟩
    refine ⟨domain, (isAfter domain).mpr ⟨before, ?_⟩, named⟩
    intro isKey
    rcases named with plain | ⟨_, secure⟩
    · exact notPlain (plain.trans (congrArg _ isKey))
    · exact notSecure (secure.trans (congrArg _ isKey))

theorem RoutersAgree.manage {routers : List (String × HttpRouter)}
    (agree : RoutersAgree toPunycode independent application enabled (getEntry routers))
    (isAfter : forall other, after other <->
      other = domain ∨ (enabled other ∧ other.uniqueConfigKey ≠ domain.uniqueConfigKey)) :
    RoutersAgree toPunycode independent application after
      (getEntry (managedRouters toPunycode application domain routers)) where
  plain := by
    intro other isEnabled
    rcases (isAfter other).mp isEnabled with isDomain | ⟨before, different⟩
    · rw [isDomain]
      refine ⟨_, ?_, Alike.refl toPunycode application domain _⟩
      unfold managedRouters
      split
      · rw [getEntry_setEntry_other _ _ routerName_ne_secure, getEntry_setEntry_self]
      · rw [getEntry_deleteEntry_other _ routerName_ne_secure, getEntry_setEntry_self]
    · rw [getEntry_managedRouters toPunycode routers (routerName_ne different) routerName_ne_secure]
      exact agree.plain other before
  secure := by
    intro other isEnabled hasSecure
    rcases (isAfter other).mp isEnabled with isDomain | ⟨before, different⟩
    · rw [isDomain] at hasSecure ⊢
      refine ⟨_, ?_, Alike.refl toPunycode application domain _⟩
      unfold managedRouters
      rw [if_pos hasSecure, getEntry_setEntry_self]
    · rw [getEntry_managedRouters toPunycode routers routerName_ne_secure.symm (routerNameSecure_ne different)]
      exact agree.secure other before hasSecure
  only := by
    intro name isSome
    by_cases isPlain : name = routerName application.appName domain.uniqueConfigKey
    · exact ⟨domain, (isAfter domain).mpr (Or.inl rfl), Or.inl isPlain⟩
    by_cases isSecure : name = routerNameSecure application.appName domain.uniqueConfigKey
    · cases hasSecure : domain.hasSecureRouter with
      | true => exact ⟨domain, (isAfter domain).mpr (Or.inl rfl), Or.inr ⟨hasSecure, isSecure⟩⟩
      | false =>
          unfold managedRouters at isSome
          rw [hasSecure, if_neg Bool.false_ne_true, isSecure, getEntry_deleteEntry_self] at isSome
          cases isSome
    · rw [getEntry_managedRouters toPunycode routers isPlain isSecure] at isSome
      rcases agree.only name isSome with ⟨other, before, named⟩
      refine ⟨other, (isAfter other).mpr (Or.inr ⟨before, fun isKey => ?_⟩), named⟩
      rcases named with plain | ⟨_, secure⟩
      · exact isPlain (plain.trans (congrArg _ isKey))
      · exact isSecure (secure.trans (congrArg _ isKey))

end Routers

end Traefik
end Dokploy
