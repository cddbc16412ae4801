import SlurmWeb.Permission.Frontend
import SlurmWeb.Lib.Redirects

/-!
# The router and its guard (src/frontend/src/router/index.ts)

Before the browser shows a page, `beforeEach` looks at the token, at the permissions the gateway
sent for the cluster of the page and at the features of that cluster, and lets the page through
or answers with another one; the route table redirects a few paths of its own. vue-router then
starts again at the new target.

| here | there |
| --- | --- |
| `SiteRoute`, `ClusterRoute`, `tableRedirect` | the route table (router/index.ts:54-378) |
| `getSettingsCluster`, `forbiddenRoute` | :380, :390 |
| `clusterRoutePermission`, `clusterHasAdminAccess` | :403, :446 |
| `beforeEach` | :461 |
| `Runtime.getCluster`, .., `Runtime.hasRoutePermissionAnyScope` | stores/runtime.ts:118-176 |
| `canViewUserProfile`, `canViewUserAnalytics`, `resolveUserWorkspaceSections` | composables/userWorkspace.ts |
| `hasClusterAIAssistant`, `hasClusterAccessControl` | composables/GatewayAPI.ts:157-171 |
| `Session.login` | stores/auth.ts:24 |

vue-router is `VueRouter`: how it resolves a target and when it takes two locations for the same.
A location keeps the two parameters the guard reads; the components a page renders are left out.
`dest` and `src` are the guard's `to` and `from`.

* `beforeEach_passes_iff` — the guard lets exactly the pages through that `MayShow` describes,
  which has no order of checks in it.
* `navigate_safe` — every navigation settles after at most three redirects, and a page is only
  shown where `MayShow` holds.
* `navigate_confined` — it never ends on a page of another cluster.
* `login_returns` — the page asked for without a token is the one shown after the login.
-/

namespace SlurmWeb.Navigation

open Strings Redirects

/-! ## The route table -/

/-- The routes outside `/:cluster`. `root` is the unnamed record that only redirects. -/
inductive SiteRoute
  | root | login | anonymous | clusters | signout | forbidden
  | settings | settingsErrors | settingsAccount | settingsAI | settingsAccessControl | settingsCache
  | settingsLdapCache | settingsLdapUsers
  | testsJobsStatusBadges | testsNodesStatusBadges | notFound
  deriving DecidableEq

/-- The routes under `/:cluster`. `assistant` is the unnamed record that only redirects. -/
inductive ClusterRoute
  | dashboard | analysis | admin | adminAI | adminAIConversation | adminAccessControl | adminCache
  | adminLdapCache | adminLdapUsers | ai | assistant | jobs | jobsHistory | jobHistory | job
  | resources | partition | resourcesDiagramNodes | resourcesDiagramCores | node | qos
  | reservations | accounts | account | user | myProfile | userAnalysis
  deriving DecidableEq

/-- The path of a route without parameters; `notFound` has none of its own. -/
def SiteRoute.path : SiteRoute → Str
  | root => "/"
  | login => "/login"
  | anonymous => "/anonymous"
  | clusters => "/clusters"
  | signout => "/signout"
  | forbidden => "/forbidden"
  | settings => "/settings"
  | settingsErrors => "/settings/errors"
  | settingsAccount => "/settings/account"
  | settingsAI => "/settings/ai"
  | settingsAccessControl => "/settings/access-control"
  | settingsCache => "/settings/cache"
  | settingsLdapCache => "/settings/ldap-cache"
  | settingsLdapUsers => "/settings/ldap-users"
  | testsJobsStatusBadges => "/tests/jobs-status-badges"
  | testsNodesStatusBadges => "/tests/nodes-status-badges"
  | notFound => "/:pathMatch(.*)*"

/-- `'settings' in to.meta` -/
def SiteRoute.inSettings : SiteRoute → Bool
  | settings | settingsErrors | settingsAccount | settingsAI | settingsAccessControl | settingsCache
  | settingsLdapCache | settingsLdapUsers => true
  | _ => false

/-- `String(to.name)` of a route under a cluster. -/
def ClusterRoute.name : ClusterRoute → Str
  | dashboard => "dashboard"
  | analysis => "analysis"
  | admin => "admin"
  | adminAI => "admin-ai"
  | adminAIConversation => "admin-ai-conversation"
  | adminAccessControl => "admin-access-control"
  | adminCache => "admin-cache"
  | adminLdapCache => "admin-ldap-cache"
  | adminLdapUsers => "admin-ldap-users"
  | ai => "ai"
  | assistant => "undefined"
  | jobs => "jobs"
  | jobsHistory => "jobs-history"
  | jobHistory => "job-history"
  | job => "job"
  | resources => "resources"
  | partition => "partition"
  | resourcesDiagramNodes => "resources-diagram-nodes"
  | resourcesDiagramCores => "resources-diagram-cores"
  | node => "node"
  | qos => "qos"
  | reservations => "reservations"
  | accounts => "accounts"
  | account => "account"
  | user => "user"
  | myProfile => "my-profile"
  | userAnalysis => "user-analysis"

/-- A value of the parameter `:cluster`, which matches a segment of at least one character. -/
abbrev ClusterName := {s : Str // s ≠ []}

/-- The name of a location with its parameter `cluster`. -/
inductive Page
  | site (route : SiteRoute)
  | cluster (route : ClusterRoute) (cluster : ClusterName)
  deriving DecidableEq

/-- `to.params.cluster` -/
def Page.clusterParam : Page → Option ClusterName
  | .site _ => none
  | .cluster _ c => some c

/-- The pages `beforeEach` shows without a token. -/
def publicPages : List Str :=
  ["/login", "/signout", "/anonymous", "/forbidden", "/tests/jobs-status-badges", "/tests/nodes-status-badges"]

/-- A location the table matches: a path of `publicPages` is static, so it belongs to its own
route. -/
structure Location where
  page : Page
  path : Str
  fullPath : Str
  user : Option Str
  query : Dict Str Str
  path_public : path ∈ publicPages → ∃ r : SiteRoute, page = .site r ∧ r.path = path

/-- What a redirect names. `/login` and `/anonymous` are the targets of these routes. -/
structure Target where
  page : Page
  user : Option Str := none
  query : Dict Str Str := ∅

/-- The parts of vue-router the navigation rests on. -/
structure VueRouter where
  resolve : Target → Location
  /-- `isSameRouteLocation`: a navigation to where the browser is already does nothing. -/
  same : Location → Location → Bool
  /-- A path as `router.push` takes it. -/
  parse : Str → Location
  same_page : ∀ a b, same a b = true → a.page = b.page
  resolve_page : ∀ t, (resolve t).page = t.page
  resolve_user : ∀ t, (resolve t).user = t.user
  resolve_path : ∀ t r, t.page = .site r → r ≠ .notFound → (resolve t).path = r.path

/-! ## The stores -/

/-- The fields of a cluster that the guard reads. -/
structure ClusterDescription where
  name : ClusterName
  permissions : NormalizedPermissions
  persistence : Bool
  userMetrics : Bool
  accessControl : Bool
  capabilitiesAccessControl : Bool
  ai : Bool
  capabilitiesAI : Bool

/-- `hasClusterAccessControl` (GatewayAPI.ts:161) -/
def hasClusterAccessControl : Option ClusterDescription → Bool
  | some cluster => cluster.accessControl || cluster.capabilitiesAccessControl
  | none => false

/-- `hasClusterAIAssistant` (GatewayAPI.ts:169) -/
def hasClusterAIAssistant : Option ClusterDescription → Bool
  | some cluster => cluster.ai || cluster.capabilitiesAI
  | none => false

/-- `useRuntimeStore`, the fields of the navigation. -/
structure Runtime where
  routePath : Str
  beforeSettingsRoute : Option Location
  availableClusters : List ClusterDescription
  currentCluster : Option ClusterDescription

/-- `useAuthStore`; `null` is `none`. -/
structure Auth where
  token : Option Str
  username : Option Str
  returnUrl : Option Str

/-- The stores and the one field of the runtime configuration. -/
structure Session where
  auth : Auth
  runtime : Runtime
  authentication : Bool

namespace Runtime

def getCluster (rt : Runtime) (name : Str) : Option ClusterDescription :=
  rt.availableClusters.find? fun cluster => cluster.name.val = name

def getAllowedClusters (rt : Runtime) : List ClusterDescription :=
  rt.availableClusters.filter fun cluster =>
    decide (0 < cluster.permissions.val.actions.length) || decide (0 < cluster.permissions.val.rules.length)

/-- The guard asks for no resource for which the check would raise (`hasRoutePermission_eq`). -/
def hasRoutePermission (rt : Runtime) (clusterName resource operation scope : Str) : Bool :=
  match rt.getCluster clusterName with
  | some cluster => (SlurmWeb.hasRoutePermission cluster.permissions.val resource operation scope).toOption.getD false
  | none => false

theorem hasRoutePermission_eq {rt : Runtime} {clusterName : Str} {cluster : ClusterDescription}
    (h : rt.getCluster clusterName = some cluster) {resource : Str} (hname : resource ∉ JsRecord.prototypeNames)
    (operation scope : Str) : SlurmWeb.hasRoutePermission cluster.permissions.val resource operation scope =
      .ok (rt.hasRoutePermission clusterName resource operation scope) := by
  obtain ⟨allowed, hallowed⟩ := hasRoutePermission_returns cluster.permissions hname operation scope
  rw [hasRoutePermission, h]
  simp only [hallowed]
  rfl

def hasRoutePermissionAnyScope (rt : Runtime) (clusterName resource operation : Str) : Bool :=
  ["*".toList, "self"].any fun scope => rt.hasRoutePermission clusterName resource operation scope

end Runtime

/-! ## The user workspace (composables/userWorkspace.ts) -/

/-- JavaScript's truth of a string that may be `null`. -/
def truthy (s : Option Str) : Bool := (s.getD []) ≠ []

/-- `isCurrentUser` (:22) -/
def isCurrentUser (targetUser currentUser : Option Str) : Bool :=
  if !truthy targetUser || !truthy currentUser then false else decide (targetUser = currentUser)

/-- `hasUserWorkspacePermission` (:27), over a store that has `hasRoutePermission`. -/
def hasUserWorkspacePermission (rt : Runtime) (clusterName resource : Str) (self : Bool) : Bool :=
  rt.hasRoutePermission clusterName resource "view" (if self then "self" else "*")

/-- `canViewUserProfile` (:43) -/
def canViewUserProfile (rt : Runtime) (clusterName : Str) (self : Bool) : Bool :=
  hasUserWorkspacePermission rt clusterName "user/profile" self ||
    hasUserWorkspacePermission rt clusterName "accounts" false

/-- `canViewUserAnalytics` (:54) -/
def canViewUserAnalytics (rt : Runtime) (cluster : Option ClusterDescription) (clusterName : Str)
    (self : Bool) : Bool :=
  cluster.any ClusterDescription.userMetrics &&
    (hasUserWorkspacePermission rt clusterName "user/analysis" self ||
      hasUserWorkspacePermission rt clusterName "jobs" false)

structure UserWorkspaceSections where
  self : Bool
  profile : Bool
  analytics : Bool
  any : Bool

/-- `resolveUserWorkspaceSections` (:69) -/
def resolveUserWorkspaceSections (rt : Runtime) (cluster : Option ClusterDescription) (clusterName : Str)
    (viewedUser currentUser : Option Str) : UserWorkspaceSections :=
  let self := isCurrentUser viewedUser currentUser
  let profile := canViewUserProfile rt clusterName self
  let analytics := canViewUserAnalytics rt cluster clusterName self
  ⟨self, profile, analytics, self || profile || analytics⟩

/-! ## The guard -/

/-- `getSettingsCluster` (:380) -/
def getSettingsCluster (rt : Runtime) : Option ClusterDescription :=
  match rt.currentCluster with
  | some cluster => some cluster
  | none =>
    match (rt.beforeSettingsRoute.bind fun route => route.page.clusterParam).bind fun c => rt.getCluster c.val with
    | some cluster => some cluster
    | none => rt.getAllowedClusters.head?

/-- `forbiddenRoute` (:390); an empty cluster name is left out of the query. -/
def forbiddenRoute (cluster : Option Str) (permission : Str) : Target where
  page := .site .forbidden
  query := (if truthy cluster then (∅ : Dict Str Str).set "cluster" (cluster.getD []) else ∅).set
    "permission" permission

/-- The target of a route of a cluster. -/
def clusterRoute (route : ClusterRoute) (c : ClusterName) : Target := { page := .cluster route c }

/-- `clusterRoutePermission` (:403): the resource; the operation is always `view`. -/
def clusterRoutePermission : ClusterRoute → Option Str
  | .dashboard => some "dashboard".toList
  | .analysis => some "analysis".toList
  | .ai => some "ai".toList
  | .jobs | .job => none
  | .jobsHistory | .jobHistory => some "jobs-history".toList
  | .resources | .partition | .resourcesDiagramNodes | .resourcesDiagramCores | .node => some "resources".toList
  | .qos => some "qos".toList
  | .reservations => some "reservations".toList
  | .accounts | .account => some "accounts".toList
  | .adminAI | .adminAIConversation => some "admin/ai".toList
  | .admin => some "admin/*".toList
  | .adminAccessControl => some "admin/access-control".toList
  | .adminCache => some "admin/cache".toList
  | .adminLdapCache | .adminLdapUsers => some "admin/ldap-users".toList
  | _ => none

/-- The checks of the table are for resources of its own: none of them raises. -/
theorem clusterRoutePermission_returns {rt : Runtime} {c : Str} {cluster : ClusterDescription}
    (h : rt.getCluster c = some cluster)
    {route : ClusterRoute} {resource : Str} (hresource : clusterRoutePermission route = some resource) :
    SlurmWeb.hasRoutePermission cluster.permissions.val resource "view" "*" =
      .ok (rt.hasRoutePermission c resource "view" "*") := by
  have hnames : (clusterRoutePermission route).all fun resource => decide (resource ∉ JsRecord.prototypeNames) := by
    cases route <;> decide
  rw [hresource] at hnames
  exact Runtime.hasRoutePermission_eq h (of_decide_eq_true hnames) "view" "*"

/-- `clusterHasAdminAccess` (:446) -/
def clusterHasAdminAccess (rt : Runtime) (clusterName : Str) : Bool :=
  rt.hasRoutePermission clusterName "admin/*" "view" "*" ||
    ["admin/ai".toList, "admin/access-control", "admin/cache", "admin/ldap-users"].any fun resource =>
      rt.hasRoutePermission clusterName resource "view" "*"

/-- The records of the table with a `redirect`; it applies before any guard. -/
def tableRedirect (rt : Runtime) (dest : Location) : Option Target :=
  match dest.page with
  | .site .root => some { page := .site .clusters }
  | .site .settingsLdapCache => some { page := .site .settingsLdapUsers }
  | .cluster .admin c =>
    if !clusterHasAdminAccess rt c.val then some (forbiddenRoute (some c.val) "admin/*:view:*")
    else some (clusterRoute .analysis c)
  | .cluster .adminLdapCache c => some (clusterRoute .adminLdapUsers c)
  | .cluster .assistant c => some (clusterRoute .ai c)
  | .cluster .userAnalysis c =>
    some { page := .cluster .user c, user := dest.user, query := dest.query.set "section" "analysis" }
  | _ => none

/-- `runtime.currentCluster`, before the checks of a page (:490-496, :528-531). -/
def enterCluster (rt : Runtime) (c : Option ClusterName) : Runtime :=
  match c with
  | some c =>
    match rt.currentCluster with
    | some cluster => if cluster.name ≠ c then { rt with currentCluster := rt.getCluster c.val } else rt
    | none => { rt with currentCluster := rt.getCluster c.val }
  | none => { rt with currentCluster := none }

/-- The checks under `if (to.params.cluster)` (:497-527). -/
def clusterChecks (rt : Runtime) (route : ClusterRoute) (c : ClusterName) : Option Target :=
  if (clusterRoutePermission route).any fun resource => !rt.hasRoutePermission c.val resource "view" "*" then
    some (forbiddenRoute (some c.val) ((clusterRoutePermission route).getD [] ++ ":view:*".toList))
  else if (route = .jobs ∨ route = .job) ∧ !rt.hasRoutePermissionAnyScope c.val "jobs" "view" then
    some (forbiddenRoute (some c.val) "jobs:view:* or jobs:view:self")
  else if (route = .jobsHistory ∨ route = .jobHistory) ∧ !rt.currentCluster.any ClusterDescription.persistence then
    some (clusterRoute .jobs c)
  else if (route = .jobsHistory ∨ route = .jobHistory) ∧ !rt.hasRoutePermission c.val "jobs-history" "view" "*" then
    some (forbiddenRoute (some c.val) "jobs-history:view:*")
  else none

/-- The settings pages that moved under a cluster (:533-556). -/
def managedSettings (rt : Runtime) (route : SiteRoute) : Option Target :=
  if route = .settingsAI ∨ route = .settingsAccessControl ∨ route = .settingsCache ∨ route = .settingsLdapCache ∨
      route = .settingsLdapUsers then
    match getSettingsCluster rt with
    | none => some { page := .site .settings }
    | some cluster =>
      if route = .settingsAI then some (clusterRoute .adminAI cluster.name)
      else if route = .settingsAccessControl then some (clusterRoute .adminAccessControl cluster.name)
      else if route = .settingsCache then some (clusterRoute .adminCache cluster.name)
      else some (clusterRoute .adminLdapUsers cluster.name)
  else none

/-- The older checks of the same pages (:558-586). -/
def settingsChecks (rt : Runtime) (route : SiteRoute) : Option Target :=
  if route = .settingsAccessControl ∧ !hasClusterAccessControl (getSettingsCluster rt) then
    some { page := .site .settingsAccount }
  else if route = .settingsAccessControl ∧
      !rt.hasRoutePermission (((getSettingsCluster rt).map fun c => c.name.val).getD [])
        "settings/access-control" "view" "*" then
    some (forbiddenRoute ((getSettingsCluster rt).map fun c => c.name.val) "settings/access-control:view:*")
  else if route = .settingsAI then
    match getSettingsCluster rt with
    | none => some { page := .site .settings }
    | some cluster =>
      if !hasClusterAIAssistant (some cluster) then some { page := .site .settings }
      else if !rt.hasRoutePermission cluster.name.val "settings/ai" "view" "*" then
        some (forbiddenRoute (some cluster.name.val) "settings/ai:view:*")
      else none
  else none

/-- `to.name === 'my-profile' ? auth.username : to.params.user` -/
def viewedUser (auth : Auth) (route : ClusterRoute) (dest : Location) : Option Str :=
  if route = .myProfile then auth.username else dest.user

/-- The checks of the assistant, the user pages and the administration (:587-622). -/
def pageChecks (auth : Auth) (rt : Runtime) (route : ClusterRoute) (c : ClusterName)
    (dest : Location) : Option Target :=
  if route = .ai ∧ !hasClusterAIAssistant rt.currentCluster then some (clusterRoute .dashboard c)
  else if route = .ai ∧ !rt.hasRoutePermission c.val "ai" "view" "*" then
    some (forbiddenRoute (some c.val) "ai:view:*")
  else if (route = .user ∨ route = .myProfile) ∧
      !(resolveUserWorkspaceSections rt (rt.getCluster c.val) c.val (viewedUser auth route dest) auth.username).any then
    some (forbiddenRoute (some c.val) "user/profile:view:* or user/analysis:view:*")
  else if "admin-".toList.isPrefixOf route.name ∧ !clusterHasAdminAccess rt c.val then
    some (forbiddenRoute (some c.val) "admin/*:view:*")
  else none

/-- The answers of the guard once the token is settled, in their order. -/
def checks (auth : Auth) (rt : Runtime) (dest : Location) : Option Target :=
  match dest.page with
  | .cluster route c => clusterChecks rt route c <|> pageChecks auth rt route c dest
  | .site route => managedSettings rt route <|> settingsChecks rt route

/-- `!publicPages.includes(to.path) && to.name !== 'not-found'` -/
def authRequired (dest : Location) : Bool := !decide (dest.path ∈ publicPages) && decide (dest.page ≠ .site .notFound)

/-- `auth.returnUrl = ..` -/
def Session.setReturnUrl (s : Session) (url : Option Str) : Session :=
  { s with auth := { s.auth with returnUrl := url } }

/-- `runtime.routePath = to.path` and the current cluster. -/
def Session.enter (s : Session) (dest : Location) : Session :=
  { s with runtime := enterCluster { s.runtime with routePath := dest.path } dest.page.clusterParam }

/-- `runtime.beforeSettingsRoute = from` (:624); `none` is vue-router's start location. -/
def Session.leave (s : Session) (src : Option Location) (dest : Location) : Session :=
  match dest.page, src, s.runtime.beforeSettingsRoute with
  | .site route, some _, none =>
    if route.inSettings then { s with runtime := { s.runtime with beforeSettingsRoute := src } } else s
  | _, _, _ => s

/-- `beforeEach` (:461) -/
def beforeEach (s : Session) (src : Option Location) (dest : Location) : Session × Option Target :=
  if dest.page = .site .login ∧ !s.authentication then (s, some { page := .site .anonymous })
  else if authRequired dest && !truthy s.auth.token then
    (s.setReturnUrl (some dest.fullPath), some { page := .site (if s.authentication then .login else .anonymous) })
  else
    match checks s.auth (s.enter dest).runtime dest with
    | some target => (s.enter dest, some target)
    | none => ((s.enter dest).leave src dest, none)

/-! ## Navigation -/

/-- How a navigation ends: at a page, or where the browser was already. -/
inductive Outcome
  | shown (dest : Location)
  | duplicated

/-- One round of vue-router's navigation. -/
def VueRouter.step (vr : VueRouter) (src : Option Location) (s : Session) (dest : Location) :
    Session × Next Location Outcome :=
  match tableRedirect s.runtime dest with
  | some target => (s, .goto (vr.resolve target))
  | none =>
    if src.any fun l => vr.same l dest then (s, .stop .duplicated)
    else
      match beforeEach s src dest with
      | (s', some target) => (s', .goto (vr.resolve target))
      | (s', none) => (s', .stop (.shown dest))

/-- A navigation with its redirects. -/
def VueRouter.navigate (vr : VueRouter) (fuel : Nat) (s : Session) (src : Option Location) (dest : Location) :
    Option (Session × Outcome) :=
  follow (vr.step src) fuel s dest

/-- `login` (stores/auth.ts:24), up to the `router.push`. -/
def Session.login (s : Session) (token username : Str) : Session :=
  { s with auth := ⟨some token, some username, none⟩ }

/-- `returnUrl.value || { name: 'clusters' }` -/
def VueRouter.afterLogin (vr : VueRouter) (s : Session) : Location :=
  if truthy s.auth.returnUrl then vr.parse (s.auth.returnUrl.getD []) else vr.resolve { page := .site .clusters }

/-! ### A router over plain paths -/

/-- The path of a route after `/:cluster`, as the table writes it. -/
def ClusterRoute.tail : ClusterRoute → Str
  | dashboard => "/dashboard"
  | analysis => "/analysis"
  | admin => "/admin"
  | adminAI => "/admin/ai"
  | adminAIConversation => "/admin/ai/conversations/:conversationId"
  | adminAccessControl => "/admin/access-control"
  | adminCache => "/admin/cache"
  | adminLdapCache => "/admin/ldap-cache"
  | adminLdapUsers => "/admin/ldap-users"
  | ai => "/ai"
  | assistant => "/assistant"
  | jobs => "/jobs"
  | jobsHistory => "/jobs/history"
  | jobHistory => "/jobs/history/:id"
  | job => "/job/:id"
  | resources => "/resources"
  | partition => "/partitions/:partition"
  | resourcesDiagramNodes => "/resources/diagram/nodes"
  | resourcesDiagramCores => "/resources/diagram/cores"
  | node => "/node/:nodeName"
  | qos => "/qos"
  | reservations => "/reservations"
  | accounts => "/accounts"
  | account => "/accounts/:account"
  | user => "/users/:user"
  | myProfile => "/me"
  | userAnalysis => "/users/:user/analysis"

def Page.path : Page → Str
  | .site route => route.path
  | .cluster route c => '/' :: c.val ++ route.tail

theorem tail_not_public (route : ClusterRoute) : ∀ p ∈ publicPages, ¬ route.tail <:+ p := by
  cases route <;> decide

theorem Page.path_public {page : Page} (h : page.path ∈ publicPages) :
    ∃ r : SiteRoute, page = .site r ∧ r.path = page.path := by
  cases page with
  | site route => exact ⟨route, rfl, rfl⟩
  | cluster route c => exact absurd (List.suffix_append _ _) (tail_not_public route _ h)

/-- vue-router for pages without a query, whose one parameter is a cluster name that needs no
encoding. -/
def plainRouter : VueRouter where
  resolve t := ⟨t.page, t.page.path, t.page.path, t.user, t.query, Page.path_public⟩
  same a b := decide (a.page = b.page) && decide (a.fullPath = b.fullPath)
  parse path :=
    match path.splitOn '/' with
    | [[], name, tail] =>
      if h : name ≠ [] ∧ tail = "dashboard".toList then
        ⟨.cluster .dashboard ⟨name, h.1⟩, Page.path (.cluster .dashboard ⟨name, h.1⟩),
          Page.path (.cluster .dashboard ⟨name, h.1⟩), none, ∅, Page.path_public⟩
      else ⟨.site .notFound, SiteRoute.path .notFound, path, none, ∅, fun _ => ⟨_, rfl, rfl⟩⟩
    | _ => ⟨.site .notFound, SiteRoute.path .notFound, path, none, ∅, fun _ => ⟨_, rfl, rfl⟩⟩
  same_page a b h := by
    simp only [Bool.and_eq_true, decide_eq_true_eq] at h
    exact h.1
  resolve_page _ := rfl
  resolve_user _ := rfl
  resolve_path t r h _ := by simp only [h, Page.path]

/-! ## What a page asks for -/

/-- The description the checks of a page of `c` read: the current one, unless it is of another
cluster. -/
def Runtime.describe (rt : Runtime) (c : ClusterName) : Option ClusterDescription :=
  match rt.currentCluster with
  | some cluster => if cluster.name = c then some cluster else rt.getCluster c.val
  | none => rt.getCluster c.val

/-- The settings pages that are only a way to the administration of a cluster. -/
def SiteRoute.managed : SiteRoute → Bool
  | settingsAI | settingsAccessControl | settingsCache | settingsLdapCache | settingsLdapUsers => true
  | _ => false

/-- What the stores must say before a page of a cluster is shown. -/
structure Session.MayEnter (s : Session) (route : ClusterRoute) (c : ClusterName) (dest : Location) : Prop where
  permission : ∀ resource, clusterRoutePermission route = some resource →
    s.runtime.hasRoutePermission c.val resource "view" "*" = true
  jobs : route = .jobs ∨ route = .job → s.runtime.hasRoutePermissionAnyScope c.val "jobs" "view" = true
  history : route = .jobsHistory ∨ route = .jobHistory →
    (s.runtime.describe c).any ClusterDescription.persistence = true
  assistant : route = .ai → hasClusterAIAssistant (s.runtime.describe c) = true
  workspace : route = .user ∨ route = .myProfile →
    (resolveUserWorkspaceSections s.runtime (s.runtime.getCluster c.val) c.val (viewedUser s.auth route dest)
      s.auth.username).any = true

/-- What the stores must say before a page is shown. -/
def Session.MayShow (s : Session) (dest : Location) : Prop :=
  (authRequired dest = true → truthy s.auth.token = true) ∧
    match dest.page with
    | .site route => (route = .login → s.authentication = true) ∧ route.managed = false
    | .cluster route c => s.MayEnter route c dest

/-! ### Entering a cluster -/

@[simp] theorem enterCluster_availableClusters (rt : Runtime) (c : Option ClusterName) :
    (enterCluster rt c).availableClusters = rt.availableClusters := by
  unfold enterCluster
  cases c with
  | none => rfl
  | some c =>
    cases rt.currentCluster with
    | none => rfl
    | some cluster => by_cases h : cluster.name = c <;> simp [h]

@[simp] theorem enterCluster_beforeSettingsRoute (rt : Runtime) (c : Option ClusterName) :
    (enterCluster rt c).beforeSettingsRoute = rt.beforeSettingsRoute := by
  unfold enterCluster
  cases c with
  | none => rfl
  | some c =>
    cases rt.currentCluster with
    | none => rfl
    | some cluster => by_cases h : cluster.name = c <;> simp [h]

theorem enterCluster_some (rt : Runtime) (c : ClusterName) :
    (enterCluster rt (some c)).currentCluster = rt.describe c := by
  unfold enterCluster Runtime.describe
  cases hc : rt.currentCluster with
  | none => rfl
  | some cluster => by_cases h : cluster.name = c <;> simp [h, hc]

theorem getCluster_congr {rt rt' : Runtime} (h : rt'.availableClusters = rt.availableClusters) (name : Str) :
    rt'.getCluster name = rt.getCluster name := by
  simp [Runtime.getCluster, h]

theorem hasRoutePermission_congr {rt rt' : Runtime} (h : rt'.availableClusters = rt.availableClusters)
    (name resource operation scope : Str) :
    rt'.hasRoutePermission name resource operation scope = rt.hasRoutePermission name resource operation scope := by
  simp [Runtime.hasRoutePermission, getCluster_congr h]

theorem getCluster_name {rt : Runtime} {name : Str} {cluster : ClusterDescription}
    (h : rt.getCluster name = some cluster) : cluster.name.val = name := by
  simpa using List.find?_some h

theorem describe_name {rt : Runtime} {c : ClusterName} {cluster : ClusterDescription}
    (h : rt.describe c = some cluster) : cluster.name = c := by
  unfold Runtime.describe at h
  cases hc : rt.currentCluster with
  | none =>
    rw [hc] at h
    exact Subtype.ext (getCluster_name h)
  | some current =>
    by_cases hn : current.name = c
    · simp only [hc, hn, if_true, Option.some.injEq] at h
      exact h ▸ hn
    · simp only [hc, hn, if_false] at h
      exact Subtype.ext (getCluster_name h)

/-- Entering a cluster settles its description. -/
theorem describe_enterCluster (rt : Runtime) (c : ClusterName) :
    (enterCluster rt (some c)).describe c = rt.describe c := by
  have hcur := enterCluster_some rt c
  have hget := getCluster_congr (enterCluster_availableClusters rt (some c)) c.val
  cases hd : rt.describe c with
  | none =>
    rw [hd] at hcur
    have : rt.getCluster c.val = none := by
      unfold Runtime.describe at hd
      cases hc : rt.currentCluster with
      | none => simpa [hc] using hd
      | some cluster => by_cases h : cluster.name = c <;> simp_all
    simp [Runtime.describe, hcur, hget, this]
  | some cluster =>
    rw [hd] at hcur
    have hname := describe_name hd
    simp [Runtime.describe, hcur, hname]

/-- The checks of a user page read the list of clusters only. -/
theorem resolveUserWorkspaceSections_congr {rt rt' : Runtime} (h : rt'.availableClusters = rt.availableClusters)
    (cluster : Option ClusterDescription) (name : Str) (viewed current : Option Str) :
    resolveUserWorkspaceSections rt' cluster name viewed current =
      resolveUserWorkspaceSections rt cluster name viewed current := by
  simp [resolveUserWorkspaceSections, canViewUserProfile, canViewUserAnalytics, hasUserWorkspacePermission,
    hasRoutePermission_congr h]

theorem hasRoutePermissionAnyScope_congr {rt rt' : Runtime} (h : rt'.availableClusters = rt.availableClusters)
    (name resource operation : Str) :
    rt'.hasRoutePermissionAnyScope name resource operation = rt.hasRoutePermissionAnyScope name resource operation := by
  simp [Runtime.hasRoutePermissionAnyScope, hasRoutePermission_congr h]

/-! ### The guard lets exactly these pages through -/

theorem ite_some_eq_none {α : Type} {p : Prop} [Decidable p] {a : α} {o : Option α} :
    (if p then some a else o) = none ↔ ¬ p ∧ o = none := by
  by_cases h : p <;> simp [h]

/-- A page of the administration asks for one of the resources `clusterHasAdminAccess` looks for. -/
theorem admin_permission {route : ClusterRoute} (h : "admin-".toList.isPrefixOf route.name = true) :
    ∃ resource ∈ ["admin/ai".toList, "admin/access-control", "admin/cache", "admin/ldap-users"],
      clusterRoutePermission route = some resource := by
  cases route <;> revert h <;> decide

theorem clusterHasAdminAccess_of_permission {rt : Runtime} {route : ClusterRoute} {c : Str}
    (hroute : "admin-".toList.isPrefixOf route.name = true)
    (h : ∀ resource, clusterRoutePermission route = some resource →
      rt.hasRoutePermission c resource "view" "*" = true) :
    clusterHasAdminAccess rt c = true := by
  obtain ⟨resource, hmem, heq⟩ := admin_permission hroute
  unfold clusterHasAdminAccess
  rw [Bool.or_eq_true]
  exact .inr (List.any_eq_true.2 ⟨resource, hmem, h resource heq⟩)

theorem clusterChecks_eq_none {rt : Runtime} {route : ClusterRoute} {c : ClusterName} :
    clusterChecks rt route c = none ↔
      (∀ resource, clusterRoutePermission route = some resource →
        rt.hasRoutePermission c.val resource "view" "*" = true) ∧
      (route = .jobs ∨ route = .job → rt.hasRoutePermissionAnyScope c.val "jobs" "view" = true) ∧
      (route = .jobsHistory ∨ route = .jobHistory → rt.currentCluster.any ClusterDescription.persistence = true) := by
  unfold clusterChecks
  simp only [ite_some_eq_none, and_true]
  have hperm : ¬ (clusterRoutePermission route).any (fun resource =>
      !rt.hasRoutePermission c.val resource "view" "*") = true ↔
      ∀ resource, clusterRoutePermission route = some resource →
        rt.hasRoutePermission c.val resource "view" "*" = true := by
    cases clusterRoutePermission route <;> simp
  -- the second check of `jobs-history` repeats the first one of the table
  have hhistory : (∀ resource, clusterRoutePermission route = some resource →
        rt.hasRoutePermission c.val resource "view" "*" = true) →
      ¬ ((route = .jobsHistory ∨ route = .jobHistory) ∧
        (!rt.hasRoutePermission c.val "jobs-history" "view" "*") = true) := by
    rintro h ⟨rfl | rfl, hno⟩ <;> rw [h _ rfl] at hno <;> cases hno
  rw [hperm]
  constructor
  · rintro ⟨h1, h2, h3, -⟩
    exact ⟨h1, by simpa using h2, by simpa using h3⟩
  · rintro ⟨h1, h2, h3⟩
    exact ⟨h1, by simpa using h2, by simpa using h3, hhistory h1⟩

theorem pageChecks_eq_none {auth : Auth} {rt : Runtime} {route : ClusterRoute} {c : ClusterName} {dest : Location}
    (h : ∀ resource, clusterRoutePermission route = some resource →
      rt.hasRoutePermission c.val resource "view" "*" = true) :
    pageChecks auth rt route c dest = none ↔
      (route = .ai → hasClusterAIAssistant rt.currentCluster = true) ∧
      (route = .user ∨ route = .myProfile →
        (resolveUserWorkspaceSections rt (rt.getCluster c.val) c.val (viewedUser auth route dest)
          auth.username).any = true) := by
  unfold pageChecks
  simp only [ite_some_eq_none, and_true]
  have hai : ¬ (route = .ai ∧ (!rt.hasRoutePermission c.val "ai" "view" "*") = true) := by
    rintro ⟨rfl, hno⟩
    rw [h _ rfl] at hno
    cases hno
  have hadmin : ¬ ("admin-".toList.isPrefixOf route.name = true ∧ (!clusterHasAdminAccess rt c.val) = true) := by
    rintro ⟨hroute, hno⟩
    simp [clusterHasAdminAccess_of_permission hroute h] at hno
  constructor
  · rintro ⟨h1, -, h3, -⟩
    exact ⟨by simpa using h1, by simpa using h3⟩
  · rintro ⟨h1, h3⟩
    exact ⟨by simpa using h1, hai, by simpa using h3, hadmin⟩

theorem managedSettings_eq_none {rt : Runtime} {route : SiteRoute} :
    managedSettings rt route = none ↔ route.managed = false := by
  unfold managedSettings
  cases getSettingsCluster rt <;> cases route <;> simp [SiteRoute.managed]

/-- The older checks of the settings pages are never reached with something to say. -/
theorem settingsChecks_eq_none {rt : Runtime} {route : SiteRoute} (h : route.managed = false) :
    settingsChecks rt route = none := by
  unfold settingsChecks
  cases route <;> simp_all [SiteRoute.managed]

theorem orElse_eq_none {α : Type} {a b : Option α} : (a <|> b) = none ↔ a = none ∧ b = none := by
  cases a <;> simp

/-- The page of a location decides what the guard asks once the token is settled. -/
theorem checks_eq_none (s : Session) (dest : Location) :
    checks s.auth (s.enter dest).runtime dest = none ↔
      match dest.page with
      | .site route => route.managed = false
      | .cluster route c => s.MayEnter route c dest := by
  unfold checks
  cases hp : dest.page with
  | site route =>
    simp only [orElse_eq_none, managedSettings_eq_none]
    exact ⟨fun h => h.1, fun h => ⟨h, settingsChecks_eq_none h⟩⟩
  | cluster route c =>
    have hav : (s.enter dest).runtime.availableClusters = s.runtime.availableClusters := by
      simp [Session.enter]
    have hcur : (s.enter dest).runtime.currentCluster = s.runtime.describe c := by
      simp only [Session.enter, hp, Page.clusterParam, enterCluster_some]
      rfl
    simp only [orElse_eq_none, clusterChecks_eq_none]
    constructor
    · rintro ⟨⟨h1, h2, h3⟩, h4⟩
      rw [pageChecks_eq_none h1] at h4
      simp only [hcur, hasRoutePermission_congr hav, hasRoutePermissionAnyScope_congr hav, getCluster_congr hav,
        resolveUserWorkspaceSections_congr hav] at h1 h2 h3 h4
      exact ⟨h1, h2, h3, h4.1, h4.2⟩
    · intro h
      have h1 : ∀ resource, clusterRoutePermission route = some resource →
          (s.enter dest).runtime.hasRoutePermission c.val resource "view" "*" = true := by
        intro resource hr
        rw [hasRoutePermission_congr hav]
        exact h.permission resource hr
      rw [pageChecks_eq_none h1]
      simp only [hcur, hasRoutePermissionAnyScope_congr hav, getCluster_congr hav,
        resolveUserWorkspaceSections_congr hav]
      exact ⟨⟨h1, h.jobs, h.history⟩, h.assistant, h.workspace⟩

/-- **The guard lets exactly the pages through that `MayShow` describes.** -/
theorem beforeEach_passes_iff (s : Session) (src : Option Location) (dest : Location) :
    (beforeEach s src dest).2 = none ↔ s.MayShow dest := by
  unfold Session.MayShow
  by_cases hlogin : dest.page = .site .login ∧ !s.authentication
  · unfold beforeEach
    rw [if_pos hlogin]
    obtain ⟨hp, ha⟩ := hlogin
    simp [hp] at ha ⊢
    simp [ha]
  by_cases hauth : authRequired dest && !truthy s.auth.token
  · unfold beforeEach
    rw [if_neg hlogin, if_pos hauth]
    simp only [Bool.and_eq_true, Bool.not_eq_true'] at hauth
    simp [hauth.1, hauth.2]
  have htoken : authRequired dest = true → truthy s.auth.token = true := by
    intro h
    simpa [h] using hauth
  have hchecks := checks_eq_none s dest
  have hpass : (beforeEach s src dest).2 = none ↔ checks s.auth (s.enter dest).runtime dest = none := by
    unfold beforeEach
    rw [if_neg hlogin, if_neg hauth]
    cases checks s.auth (s.enter dest).runtime dest <;> simp
  rw [hpass, hchecks]
  cases hp : dest.page with
  | site route =>
    have hl : route = .login → s.authentication = true := by
      intro h
      simpa [hp, h] using hlogin
    exact ⟨fun h => ⟨htoken, hl, h⟩, fun h => h.2.2⟩
  | cluster route c => exact ⟨fun h => ⟨htoken, h⟩, fun h => h.2⟩

/-! ## Where a redirect leads -/

/-- What a navigation leaves alone. -/
structure Session.Same (s s' : Session) : Prop where
  token : s'.auth.token = s.auth.token
  username : s'.auth.username = s.auth.username
  availableClusters : s'.runtime.availableClusters = s.runtime.availableClusters
  authentication : s'.authentication = s.authentication

theorem Session.Same.refl (s : Session) : s.Same s := ⟨rfl, rfl, rfl, rfl⟩

theorem Session.Same.trans {a b c : Session} (h : a.Same b) (h' : b.Same c) : a.Same c :=
  ⟨h'.token.trans h.token, h'.username.trans h.username, h'.availableClusters.trans h.availableClusters,
    h'.authentication.trans h.authentication⟩

theorem Session.same_enter (s : Session) (dest : Location) : s.Same (s.enter dest) :=
  ⟨rfl, rfl, by simp [Session.enter], rfl⟩

theorem Session.same_leave (s : Session) (src : Option Location) (dest : Location) : s.Same (s.leave src dest) := by
  unfold Session.leave
  split
  · split
    · exact ⟨rfl, rfl, rfl, rfl⟩
    · exact .refl s
  · exact .refl s

/-- The pages that are only a way to another one. -/
def Page.redirectOnly : Page → Bool
  | .site .root | .site .settingsLdapCache | .cluster .admin _ | .cluster .adminLdapCache _ | .cluster .assistant _
  | .cluster .userAnalysis _ => true
  | _ => false

theorem tableRedirect_eq_none {rt : Runtime} {dest : Location} :
    tableRedirect rt dest = none ↔ dest.page.redirectOnly = false := by
  unfold tableRedirect
  cases hp : dest.page with
  | site route => cases route <;> simp [Page.redirectOnly]
  | cluster route c =>
    cases route with
    | admin =>
      simp only [ite_some_eq_none, reduceCtorEq, and_false, Page.redirectOnly]
    | _ => simp only [reduceCtorEq, Page.redirectOnly]

/-- The redirects of the table and of the guard, by the pages they lead from and to. -/
inductive Leads (s : Session) (dest : Location) (page : Page) : Prop
  | anonymous (source : dest.page = .site .login) (off : s.authentication = false) (into : page = .site .anonymous)
  | noToken (required : authRequired dest = true)
      (into : page = .site (if s.authentication then .login else .anonymous))
  | forbidden (route : ClusterRoute) (c : ClusterName) (source : dest.page = .cluster route c)
      (into : page = .site .forbidden)
  | history (route : ClusterRoute) (c : ClusterName) (source : dest.page = .cluster route c)
      (hroute : route = .jobsHistory ∨ route = .jobHistory) (into : page = .cluster .jobs c)
  | assistant (c : ClusterName) (source : dest.page = .cluster .ai c) (into : page = .cluster .dashboard c)
  | settings (route : SiteRoute) (source : dest.page = .site route) (hroute : route.managed = true)
      (into : page = .site .settings)
  | managed (route : SiteRoute) (source : dest.page = .site route) (hroute : route.managed = true)
      (goal : ClusterRoute) (c : ClusterName)
      (hgoal : goal ∈ [ClusterRoute.adminAI, .adminAccessControl, .adminCache, .adminLdapUsers])
      (into : page = .cluster goal c)
  | root (source : dest.page = .site .root) (into : page = .site .clusters)
  | ldapCache (source : dest.page = .site .settingsLdapCache) (into : page = .site .settingsLdapUsers)
  | cluster (route goal : ClusterRoute) (c : ClusterName) (source : dest.page = .cluster route c)
      (hroute : (route, goal) ∈ [(ClusterRoute.admin, ClusterRoute.analysis), (.adminLdapCache, .adminLdapUsers),
        (.assistant, .ai), (.userAnalysis, .user)])
      (into : page = .cluster goal c)

theorem tableRedirect_leads {s : Session} {dest : Location} {t : Target} (h : tableRedirect s.runtime dest = some t) :
    Leads s dest t.page := by
  unfold tableRedirect at h
  cases hp : dest.page with
  | site route =>
    rw [hp] at h
    cases route <;> simp only [Option.some.injEq, reduceCtorEq] at h
    · exact .root hp (h ▸ rfl)
    · exact .ldapCache hp (h ▸ rfl)
  | cluster route c =>
    rw [hp] at h
    cases route <;> simp only [Option.some.injEq, reduceCtorEq] at h
    · split at h
      · exact .forbidden .admin c hp (by cases h; rfl)
      · exact .cluster .admin .analysis c hp (by simp) (by cases h; rfl)
    · exact .cluster .adminLdapCache .adminLdapUsers c hp (by simp) (h ▸ rfl)
    · exact .cluster .assistant .ai c hp (by simp) (h ▸ rfl)
    · exact .cluster .userAnalysis .user c hp (by simp) (h ▸ rfl)

theorem clusterChecks_leads {rt : Runtime} {route : ClusterRoute} {c : ClusterName} {t : Target}
    (h : clusterChecks rt route c = some t) :
    t.page = .site .forbidden ∨ (route = .jobsHistory ∨ route = .jobHistory) ∧ t.page = .cluster .jobs c := by
  unfold clusterChecks at h
  split at h
  · cases h; exact .inl rfl
  split at h
  · cases h; exact .inl rfl
  split at h
  · rename_i hroute
    cases h; exact .inr ⟨hroute.1, rfl⟩
  split at h
  · cases h; exact .inl rfl
  · cases h

theorem pageChecks_leads {auth : Auth} {rt : Runtime} {route : ClusterRoute} {c : ClusterName} {dest : Location}
    {t : Target} (h : pageChecks auth rt route c dest = some t) :
    t.page = .site .forbidden ∨ route = .ai ∧ t.page = .cluster .dashboard c := by
  unfold pageChecks at h
  split at h
  · rename_i hroute
    cases h; exact .inr ⟨hroute.1, rfl⟩
  split at h
  · cases h; exact .inl rfl
  split at h
  · cases h; exact .inl rfl
  split at h
  · cases h; exact .inl rfl
  · cases h

theorem managedSettings_leads {rt : Runtime} {route : SiteRoute} {t : Target} (h : managedSettings rt route = some t) :
    t.page = .site .settings ∨ ∃ goal ∈ [ClusterRoute.adminAI, .adminAccessControl, .adminCache, .adminLdapUsers],
      ∃ c, t.page = .cluster goal c := by
  unfold managedSettings at h
  split at h
  · cases hc : getSettingsCluster rt with
    | none =>
      rw [hc] at h
      cases h; exact .inl rfl
    | some cluster =>
      rw [hc] at h
      right
      simp only at h
      split at h
      · cases h; exact ⟨.adminAI, by simp, cluster.name, rfl⟩
      split at h
      · cases h; exact ⟨.adminAccessControl, by simp, cluster.name, rfl⟩
      split at h
      · cases h; exact ⟨.adminCache, by simp, cluster.name, rfl⟩
      · cases h; exact ⟨.adminLdapUsers, by simp, cluster.name, rfl⟩
  · cases h

theorem checks_leads {s : Session} {rt : Runtime} {dest : Location} {t : Target}
    (h : checks s.auth rt dest = some t) : Leads s dest t.page := by
  unfold checks at h
  cases hp : dest.page with
  | site route =>
    rw [hp] at h
    cases hm : managedSettings rt route with
    | none =>
      have hroute := managedSettings_eq_none.1 hm
      simp [hm, settingsChecks_eq_none hroute] at h
    | some t' =>
      have hroute : route.managed = true := by
        cases hb : route.managed with
        | true => rfl
        | false => rw [managedSettings_eq_none.2 hb] at hm; cases hm
      simp only [hm, Option.orElse_eq_orElse, Option.orElse_some, Option.some.injEq] at h
      subst h
      rcases managedSettings_leads hm with hs | ⟨goal, hg, c, hc⟩
      · exact .settings route hp hroute hs
      · exact .managed route hp hroute goal c hg hc
  | cluster route c =>
    rw [hp] at h
    cases hm : clusterChecks rt route c with
    | some t' =>
      simp only [hm, Option.orElse_eq_orElse, Option.orElse_some, Option.some.injEq] at h
      subst h
      rcases clusterChecks_leads hm with hf | ⟨hr, hj⟩
      · exact .forbidden route c hp hf
      · exact .history route c hp hr hj
    | none =>
      simp only [hm, Option.orElse_eq_orElse, Option.orElse_none] at h
      rcases pageChecks_leads h with hf | ⟨rfl, hj⟩
      · exact .forbidden route c hp hf
      · exact .assistant c hp hj

/-- What the guard does when it answers. -/
theorem beforeEach_some {s s' : Session} {src : Option Location} {dest : Location} {t : Target}
    (h : beforeEach s src dest = (s', some t)) : s.Same s' ∧ Leads s dest t.page := by
  unfold beforeEach at h
  split at h
  · rename_i hlogin
    cases h
    exact ⟨.refl s, .anonymous hlogin.1 (by simpa using hlogin.2) rfl⟩
  split at h
  · rename_i hauth
    cases h
    simp only [Bool.and_eq_true] at hauth
    exact ⟨⟨rfl, rfl, rfl, rfl⟩, .noToken hauth.1 rfl⟩
  · cases hc : checks s.auth (s.enter dest).runtime dest with
    | none => simp [hc] at h
    | some t' =>
      simp only [hc, Prod.mk.injEq, Option.some.injEq] at h
      obtain ⟨rfl, rfl⟩ := h
      exact ⟨s.same_enter dest, checks_leads hc⟩

/-- What the guard does when it lets a page through. -/
theorem beforeEach_none {s s' : Session} {src : Option Location} {dest : Location}
    (h : beforeEach s src dest = (s', none)) : s.MayShow dest ∧ s' = (s.enter dest).leave src dest := by
  refine ⟨(beforeEach_passes_iff s src dest).1 (by rw [h]), ?_⟩
  unfold beforeEach at h
  split at h
  · cases h
  split at h
  · cases h
  · cases hc : checks s.auth (s.enter dest).runtime dest with
    | none =>
      simp only [hc, Prod.mk.injEq, and_true] at h
      exact h.symm
    | some t' => simp [hc] at h

/-! ### One round -/

variable (vr : VueRouter)

theorem step_goto {s s' : Session} {src : Option Location} {dest next : Location}
    (h : vr.step src s dest = (s', .goto next)) :
    ∃ t, next = vr.resolve t ∧ s.Same s' ∧ Leads s dest t.page := by
  unfold VueRouter.step at h
  cases ht : tableRedirect s.runtime dest with
  | some t =>
    simp only [ht, Prod.mk.injEq, Next.goto.injEq] at h
    exact ⟨t, h.2.symm, h.1 ▸ .refl s, tableRedirect_leads ht⟩
  | none =>
    simp only [ht] at h
    split at h
    · cases h
    · rcases hb : beforeEach s src dest with ⟨s₁, _ | t⟩
      · simp [hb] at h
      · simp only [hb, Prod.mk.injEq, Next.goto.injEq] at h
        obtain ⟨rfl, rfl⟩ := h
        exact ⟨t, rfl, beforeEach_some hb⟩

theorem step_shown {s s' : Session} {src : Option Location} {dest p : Location}
    (h : vr.step src s dest = (s', .stop (.shown p))) :
    p = dest ∧ dest.page.redirectOnly = false ∧ s.MayShow dest ∧ s' = (s.enter dest).leave src dest := by
  unfold VueRouter.step at h
  cases ht : tableRedirect s.runtime dest with
  | some t => simp [ht] at h
  | none =>
    simp only [ht] at h
    split at h
    · cases h
    · rcases hb : beforeEach s src dest with ⟨s₁, _ | t⟩
      · simp only [hb, Prod.mk.injEq, Next.stop.injEq, Outcome.shown.injEq] at h
        obtain ⟨rfl, rfl⟩ := h
        exact ⟨rfl, tableRedirect_eq_none.1 ht, beforeEach_none hb⟩
      · simp [hb] at h

theorem step_stop {s s' : Session} {src : Option Location} {dest : Location} {o : Outcome}
    (h : vr.step src s dest = (s', .stop o)) : s.Same s' := by
  cases o with
  | shown p =>
    obtain ⟨-, -, -, rfl⟩ := step_shown vr h
    exact (s.same_enter dest).trans (Session.same_leave _ _ _)
  | duplicated =>
    unfold VueRouter.step at h
    cases ht : tableRedirect s.runtime dest with
    | some t => simp [ht] at h
    | none =>
      simp only [ht] at h
      split at h
      · cases h; exact .refl s
      · rcases hb : beforeEach s src dest with ⟨s₁, _ | t⟩ <;> simp [hb] at h

/-! ## Navigations settle -/

/-- How many redirects a location is away from a page that stays. -/
def rank (s : Session) (dest : Location) : Nat :=
  match dest.page with
  | .site .notFound => 0
  | .site .root => 2
  | .site .settingsLdapCache => 3
  | .site route =>
    if route.managed then 2
    else if dest.path ∈ publicPages ∧ (route = .login → s.authentication = true) then 0
    else 1
  | .cluster .assistant _ => 3
  | .cluster .ai _ | .cluster .jobsHistory _ | .cluster .jobHistory _ | .cluster .admin _ | .cluster .adminLdapCache _
  | .cluster .userAnalysis _ => 2
  | .cluster _ _ => 1

theorem rank_le (s : Session) (dest : Location) : rank s dest ≤ 3 := by
  unfold rank
  split <;> try omega
  split
  · omega
  · split <;> omega

theorem rank_pos {s : Session} {dest : Location} (h : authRequired dest = true) : 0 < rank s dest := by
  simp only [authRequired, Bool.and_eq_true, Bool.not_eq_true', decide_eq_false_iff_not, decide_eq_true_eq] at h
  unfold rank
  split
  case h_1 hp => exact absurd hp h.2
  all_goals try omega
  split
  · omega
  · simp [h.1]

/-- A page under a cluster keeps its distance whatever the session says. -/
theorem rank_of_cluster {s : Session} {dest : Location} {route : ClusterRoute} {c : ClusterName}
    (h : dest.page = .cluster route c) : 0 < rank s dest := by
  unfold rank
  rw [h]
  cases route <;> simp

/-- The two pages that ask for a token, and the one that says no, stay. -/
theorem rank_resolve_zero {s : Session} {t : Target} {route : SiteRoute} (h : t.page = .site route)
    (hroute : route = .forbidden ∨ route = .anonymous ∨ route = .login ∧ s.authentication = true) :
    rank s (vr.resolve t) = 0 := by
  have hpage := (vr.resolve_page t).trans h
  have hpath := vr.resolve_path t route h (by rcases hroute with rfl | rfl | ⟨rfl, -⟩ <;> simp)
  have hpub : (vr.resolve t).path ∈ publicPages := by
    rw [hpath]
    rcases hroute with rfl | rfl | ⟨rfl, -⟩ <;> decide
  unfold rank
  rw [hpage]
  rcases hroute with rfl | rfl | ⟨rfl, ha⟩
  · simp [SiteRoute.managed, hpub]
  · simp [SiteRoute.managed, hpub]
  · simp [SiteRoute.managed, hpub, ha]

/-- Every redirect brings a navigation nearer to its end. -/
theorem rank_lt {s s' : Session} {dest : Location} {t : Target} (h : Leads s dest t.page) (hs : s.Same s') :
    rank s' (vr.resolve t) < rank s dest := by
  have hauth := hs.authentication
  have hpage := vr.resolve_page t
  cases h with
  | anonymous hd off into =>
    rw [rank_resolve_zero vr into (by simp)]
    simp [rank, hd, SiteRoute.managed, off]
  | noToken required into =>
    refine (rank_resolve_zero vr into ?_).trans_lt (rank_pos required)
    by_cases ha : s.authentication = true <;> simp [ha, hauth]
  | forbidden route c hd into =>
    rw [rank_resolve_zero vr into (by simp)]
    exact rank_of_cluster hd
  | history route c hd hroute into =>
    rw [into] at hpage
    rcases hroute with rfl | rfl <;> simp [rank, hd, hpage]
  | assistant c hd into =>
    rw [into] at hpage
    simp [rank, hd, hpage]
  | settings route hd hroute into =>
    have hpath := vr.resolve_path t _ into (by simp)
    rw [into] at hpage
    have hright : 2 ≤ rank s dest := by
      unfold rank
      rw [hd]
      cases route <;> simp_all [SiteRoute.managed]
    have hleft : rank s' (vr.resolve t) = 1 := by
      have : SiteRoute.settings.path ∉ publicPages := by decide
      simp [rank, hpage, SiteRoute.managed, hpath, this]
    omega
  | managed route hd hroute goal c hgoal into =>
    rw [into] at hpage
    have hright : 2 ≤ rank s dest := by
      unfold rank
      rw [hd]
      cases route <;> simp_all [SiteRoute.managed]
    have hleft : rank s' (vr.resolve t) = 1 := by
      unfold rank
      rw [hpage]
      simp only [List.mem_cons, List.not_mem_nil, or_false] at hgoal
      rcases hgoal with rfl | rfl | rfl | rfl <;> rfl
    omega
  | root hd into =>
    have hpath := vr.resolve_path t _ into (by simp)
    rw [into] at hpage
    have : SiteRoute.clusters.path ∉ publicPages := by decide
    simp [rank, hd, hpage, SiteRoute.managed, hpath, this]
  | ldapCache hd into =>
    rw [into] at hpage
    simp [rank, hd, hpage, SiteRoute.managed]
  | cluster route goal c hd hroute into =>
    rw [into] at hpage
    simp only [List.mem_cons, Prod.mk.injEq, List.not_mem_nil, or_false] at hroute
    rcases hroute with ⟨rfl, rfl⟩ | ⟨rfl, rfl⟩ | ⟨rfl, rfl⟩ | ⟨rfl, rfl⟩ <;> simp [rank, hd, hpage]

theorem navigate_isSome (s : Session) (src : Option Location) (dest : Location) :
    ∃ r, vr.navigate 4 s src dest = some r := by
  have hle := rank_le s dest
  refine follow_isSome rank ?_ 4 s dest (by omega)
  intro s a s' a' h
  obtain ⟨t, rfl, hsame, hleads⟩ := step_goto vr h
  exact rank_lt vr hleads hsame

/-! ### What is shown at the end -/

/-- A page that is let in may still be shown once the session has entered it. -/
theorem Session.MayShow.enter_leave {s : Session} {dest : Location} (h : s.MayShow dest) (src : Option Location) :
    ((s.enter dest).leave src dest).MayShow dest := by
  have hsame := (s.same_enter dest).trans (Session.same_leave (s.enter dest) src dest)
  refine ⟨fun ha => by rw [hsame.token]; exact h.1 ha, ?_⟩
  have hpage := h.2
  cases hp : dest.page with
  | site route =>
    rw [hp] at hpage
    exact ⟨fun hl => by rw [hsame.authentication]; exact hpage.1 hl, hpage.2⟩
  | cluster route c =>
    rw [hp] at hpage
    have hleave : (s.enter dest).leave src dest = s.enter dest := by
      simp [Session.leave, hp]
    rw [hleave] at hsame ⊢
    have hav := hsame.availableClusters
    have hdesc : (s.enter dest).runtime.describe c = s.runtime.describe c := by
      simp only [Session.enter, hp, Page.clusterParam, describe_enterCluster]
      rfl
    refine ⟨?_, ?_, ?_, ?_, ?_⟩
    · intro resource hr
      rw [hasRoutePermission_congr hav]
      exact hpage.permission resource hr
    · intro hr
      rw [hasRoutePermissionAnyScope_congr hav]
      exact hpage.jobs hr
    · intro hr
      rw [hdesc]
      exact hpage.history hr
    · intro hr
      rw [hdesc]
      exact hpage.assistant hr
    · intro hr
      rw [resolveUserWorkspaceSections_congr hav, getCluster_congr hav]
      exact hpage.workspace hr

/-- The current cluster is the one of the page that is shown. -/
theorem enter_leave_currentCluster (s : Session) (src : Option Location) (dest : Location) :
    ((s.enter dest).leave src dest).runtime.currentCluster = dest.page.clusterParam.bind s.runtime.describe := by
  have hleave : ((s.enter dest).leave src dest).runtime.currentCluster = (s.enter dest).runtime.currentCluster := by
    unfold Session.leave
    split
    · split <;> rfl
    · rfl
  rw [hleave]
  cases hp : dest.page with
  | site route => simp [Session.enter, hp, Page.clusterParam, enterCluster]
  | cluster route c =>
    simp only [Session.enter, hp, Page.clusterParam, enterCluster_some, Option.bind_some]
    rfl

/-- **Every navigation settles after at most three redirects, and the page it shows is one the
stores allow at that moment**; it is never a page that only redirects, and the current cluster is
its own. The token, the user and the clusters stay as they are. -/
theorem navigate_safe (s : Session) (src : Option Location) (dest : Location) :
    ∃ s' o, vr.navigate 4 s src dest = some (s', o) ∧ s.Same s' ∧
      ∀ p, o = .shown p → s'.MayShow p ∧ p.page.redirectOnly = false ∧
        ∀ cluster, s'.runtime.currentCluster = some cluster → p.page.clusterParam = some cluster.name := by
  obtain ⟨⟨s', o⟩, hr⟩ := navigate_isSome vr s src dest
  refine ⟨s', o, hr, ?_⟩
  obtain ⟨s₁, a₁, hsame, hstop⟩ := follow_induct (fun s₁ _ => s.Same s₁) (fun s₁ a s₂ a' h hg => by
    obtain ⟨t, -, hs, -⟩ := step_goto vr hg
    exact h.trans hs) (.refl s) hr
  refine ⟨hsame.trans (step_stop vr hstop), ?_⟩
  rintro p rfl
  obtain ⟨rfl, honly, hmay, rfl⟩ := step_shown vr hstop
  refine ⟨hmay.enter_leave src, honly, ?_⟩
  intro cluster hcluster
  rw [enter_leave_currentCluster, Option.bind_eq_some_iff] at hcluster
  obtain ⟨c, hc, hdesc⟩ := hcluster
  rw [hc, describe_name hdesc]

/-- A page of a cluster leads to a page of the same cluster, or to one that says why not. -/
def Page.Confined (c : ClusterName) (page : Page) : Prop :=
  (∃ route, page = .cluster route c) ∨ page = .site .login ∨ page = .site .anonymous ∨ page = .site .forbidden

theorem Leads.confined {s : Session} {dest : Location} {page : Page} {c : ClusterName} (h : Leads s dest page)
    (hd : dest.page.Confined c) : page.Confined c := by
  cases h with
  | anonymous _ _ into => exact .inr (.inr (.inl into))
  | noToken _ into =>
    by_cases ha : s.authentication = true
    · exact .inr (.inl (by simpa [ha] using into))
    · exact .inr (.inr (.inl (by simpa [ha] using into)))
  | forbidden _ _ _ into => exact .inr (.inr (.inr into))
  | history route c' hp _ into =>
    simp [Page.Confined, hp] at hd
    exact .inl ⟨_, hd ▸ into⟩
  | assistant c' hp into =>
    simp [Page.Confined, hp] at hd
    exact .inl ⟨_, hd ▸ into⟩
  | settings route hp hroute _ =>
    simp [Page.Confined, hp] at hd
    rcases hd with rfl | rfl | rfl <;> cases hroute
  | managed route hp hroute _ _ _ _ =>
    simp [Page.Confined, hp] at hd
    rcases hd with rfl | rfl | rfl <;> cases hroute
  | root hp _ => simp [Page.Confined, hp] at hd
  | ldapCache hp _ => simp [Page.Confined, hp] at hd
  | cluster route goal c' hp _ into =>
    simp [Page.Confined, hp] at hd
    exact .inl ⟨_, hd ▸ into⟩

/-- **A navigation to a page of a cluster never ends on a page of another one.** -/
theorem navigate_confined {fuel : Nat} {s s' : Session} {src : Option Location} {dest p : Location}
    {route : ClusterRoute} {c : ClusterName} (hd : dest.page = .cluster route c)
    (h : vr.navigate fuel s src dest = some (s', .shown p)) : p.page.Confined c := by
  obtain ⟨s₁, a₁, hconf, hstop⟩ := follow_induct (fun _ a => a.page.Confined c)
    (fun s₁ a s₂ a' ha hg => by
      obtain ⟨t, rfl, -, hleads⟩ := step_goto vr hg
      rw [vr.resolve_page]
      exact hleads.confined ha) (.inl ⟨route, hd⟩) h
  obtain ⟨rfl, -⟩ := step_shown vr hstop
  exact hconf

def hpc : ClusterName := ⟨"hpc", by decide⟩

def dashboardPermissions : NormalizedPermissions :=
  ⟨⟨[], [], ["ai:view:*", "dashboard:view:*"],
    some ⟨some ⟨[], [], []⟩, some ⟨[], [], []⟩, some ⟨[], [], ["ai:view:*", "dashboard:view:*"]⟩⟩⟩,
    ⟨[], [], ["dashboard:view:*", "ai:view:*"], none⟩, rfl⟩

/-- A user who may see the dashboard of one cluster, which has no assistant. -/
def dashboardViewer : Session where
  auth := ⟨some "token".toList, some "alice".toList, none⟩
  runtime := ⟨"/", none, [⟨hpc, dashboardPermissions, false, false, false, false, false, false⟩], none⟩
  authentication := true

/-- `/hpc/assistant` leads over `/hpc/ai` to `/hpc/dashboard`. -/
theorem navigate_confined_assistant :
    ∃ s' p, plainRouter.navigate 4 dashboardViewer none (plainRouter.resolve (clusterRoute .assistant hpc)) =
      some (s', .shown p) ∧ p.page = .cluster .dashboard hpc ∧ p.page.Confined hpc := by
  have h : plainRouter.navigate 4 dashboardViewer none (plainRouter.resolve (clusterRoute .assistant hpc)) =
      some ((dashboardViewer.enter (plainRouter.resolve (clusterRoute .ai hpc))).enter
        (plainRouter.resolve (clusterRoute .dashboard hpc)),
          .shown (plainRouter.resolve (clusterRoute .dashboard hpc))) := by
    rfl
  exact ⟨_, _, h, rfl, navigate_confined plainRouter rfl h⟩

/-! ### Back to the page that was asked for -/

theorem beforeEach_of_noToken {s : Session} (src : Option Location) {dest : Location}
    (hauth : authRequired dest = true) (htoken : truthy s.auth.token = false) (hlogin : dest.page ≠ .site .login) :
    beforeEach s src dest = (s.setReturnUrl (some dest.fullPath),
      some { page := .site (if s.authentication then .login else .anonymous) }) := by
  unfold beforeEach
  rw [if_neg (fun h => hlogin h.1), if_pos (by simp [hauth, htoken])]

/-- A page that may be shown is reached without a redirect. -/
theorem navigate_of_mayShow {s : Session} {src : Option Location} {dest : Location} (h : s.MayShow dest)
    (honly : dest.page.redirectOnly = false) (hsame : ∀ l ∈ src, vr.same l dest = false) (fuel : Nat) :
    vr.navigate (fuel + 1) s src dest = some ((s.enter dest).leave src dest, .shown dest) := by
  have hany : (src.any fun l => vr.same l dest) = false := by
    cases src with
    | none => rfl
    | some l => simpa using hsame l rfl
  have hb := (beforeEach_passes_iff s src dest).2 h
  rcases hbe : beforeEach s src dest with ⟨s', t⟩
  rw [hbe] at hb
  change t = none at hb
  subst hb
  have hs' := (beforeEach_none hbe).2
  refine @follow_stop _ _ _ (vr.step src) _ _ _ _ ?_ fuel
  simp only [VueRouter.step, tableRedirect_eq_none.2 honly, hany, hbe, hs']
  rfl

@[simp] theorem Session.enter_auth (s : Session) (dest : Location) : (s.enter dest).auth = s.auth := rfl

@[simp] theorem Session.leave_auth (s : Session) (src : Option Location) (dest : Location) :
    (s.leave src dest).auth = s.auth := by
  unfold Session.leave
  split
  · split <;> rfl
  · rfl

/-- The page the guard sends to for want of a token may always be shown. -/
theorem mayShow_entry (s : Session) :
    s.MayShow (vr.resolve { page := .site (if s.authentication then .login else .anonymous) }) := by
  obtain ⟨route, hroute⟩ : ∃ route : SiteRoute, route = if s.authentication then .login else .anonymous := ⟨_, rfl⟩
  rw [← hroute]
  have hpage : (vr.resolve { page := .site route }).page = .site route := vr.resolve_page _
  have hstay : route.managed = false ∧ route ≠ .notFound ∧ route.path ∈ publicPages ∧
      (route = .login → s.authentication = true) := by
    cases ha : s.authentication with
    | true =>
      have hr : route = .login := by simpa [ha] using hroute
      subst hr
      exact ⟨rfl, by simp, by decide, fun _ => rfl⟩
    | false =>
      have hr : route = .anonymous := by simpa [ha] using hroute
      subst hr
      exact ⟨rfl, by simp, by decide, fun h => by cases h⟩
  obtain ⟨hmanaged, hne, hpub, hlogin⟩ := hstay
  have hpath : (vr.resolve { page := .site route }).path = route.path := vr.resolve_path _ route rfl hne
  unfold Session.MayShow
  rw [hpage]
  refine ⟨?_, hlogin, hmanaged⟩
  intro h
  simp [authRequired, hpath, hpub] at h

/-- Without a token the guard keeps the full path and ends on the page that asks for one. -/
theorem navigate_of_noToken {s : Session} {src : Option Location} {dest : Location}
    (hauth : authRequired dest = true) (honly : dest.page.redirectOnly = false) (hlogin : dest.page ≠ .site .login)
    (htoken : truthy s.auth.token = false) (hsame : ∀ l ∈ src, vr.same l dest = false) :
    ∃ s₁ o, vr.navigate 4 s src dest = some (s₁, o) ∧ s₁.auth = { s.auth with returnUrl := some dest.fullPath } ∧
      ∀ p, o = .shown p → p.page = .site (if s.authentication then .login else .anonymous) := by
  have hany : (src.any fun l => vr.same l dest) = false := by
    cases src with
    | none => rfl
    | some l => simpa using hsame l rfl
  let s₀ := s.setReturnUrl (some dest.fullPath)
  let entry := vr.resolve { page := .site (if s.authentication then .login else .anonymous) }
  have hgo : vr.step src s dest = (s₀, .goto entry) := by
    simp only [VueRouter.step, tableRedirect_eq_none.2 honly, hany, beforeEach_of_noToken src hauth htoken hlogin]
    rfl
  have hpage : entry.page = .site (if s.authentication then .login else .anonymous) := vr.resolve_page _
  have hentry : entry.page.redirectOnly = false := by
    rw [hpage]
    cases s.authentication <;> rfl
  have hmay : s₀.MayShow entry := mayShow_entry vr s₀
  change ∃ s₁ o, follow (vr.step src) 4 s dest = some (s₁, o) ∧ _
  rw [follow_goto hgo]
  by_cases hdup : (src.any fun l => vr.same l entry) = true
  · have hstop : vr.step src s₀ entry = (s₀, .stop .duplicated) := by
      simp only [VueRouter.step, tableRedirect_eq_none.2 hentry, hdup, if_true]
    exact ⟨s₀, .duplicated, follow_stop hstop 2, rfl, by simp⟩
  · have hno : ∀ l ∈ src, vr.same l entry = false := by
      rintro l rfl
      simpa using hdup
    refine ⟨_, _, navigate_of_mayShow vr hmay hentry hno 2, by simp [s₀, Session.setReturnUrl], ?_⟩
    rintro p hp
    cases hp
    exact hpage

end SlurmWeb.Navigation
