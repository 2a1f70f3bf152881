import Pingola.Config

/-!
# Route classes

`routing.rs`: the class of a request path under a host handler, and the upstream that serves a
class. The limiter zones and the pool group numbers only name a class, so a class stands for its
zone here.
-/

namespace Pingola
open ByteText

def streamPrefixes : List Bytes :=
  ["/rest/stream", "/rest/download", "/stream", "/play", "/ext/stream"].map ascii

def coverPrefixes : List Bytes :=
  ["/rest/getCoverArt", "/api/artwork", "/coverart", "/artwork"].map ascii

def navidromeGrpcUpstream : Bytes := ascii "navidrome_grpc"

inductive RouteClass where
  | navidromeStream
  | navidromeCover
  | navidromeApi
  | navidromeGrpc
  | vaultwardenAuth
  | vaultwardenHub
  | vaultwarden
  | couchdb
  | doh
  | adguardUi
  deriving DecidableEq

namespace RouteClass

/-- `RouteClass::ALL`, in the order of the indices. -/
def all : List RouteClass :=
  [.navidromeStream, .navidromeCover, .navidromeApi, .navidromeGrpc, .vaultwardenAuth,
    .vaultwardenHub, .vaultwarden, .couchdb, .doh, .adguardUi]

def index : RouteClass → ℕ
  | .navidromeStream => 0
  | .navidromeCover => 1
  | .navidromeApi => 2
  | .navidromeGrpc => 3
  | .vaultwardenAuth => 4
  | .vaultwardenHub => 5
  | .vaultwarden => 6
  | .couchdb => 7
  | .doh => 8
  | .adguardUi => 9

def name : RouteClass → Bytes
  | .navidromeStream => ascii "navidrome_stream"
  | .navidromeCover => ascii "navidrome_cover"
  | .navidromeApi => ascii "navidrome_api"
  | .navidromeGrpc => ascii "navidrome_grpc"
  | .vaultwardenAuth => ascii "vaultwarden_auth"
  | .vaultwardenHub => ascii "vaultwarden_hub"
  | .vaultwarden => ascii "vaultwarden"
  | .couchdb => ascii "couchdb"
  | .doh => ascii "doh"
  | .adguardUi => ascii "adguard_ui"

def defaultRateLimit : RouteClass → Option (ℚ × ℕ)
  | .navidromeStream => some (40, 15)
  | .navidromeCover => some (20, 20)
  | .navidromeApi | .navidromeGrpc => some (20, 30)
  | .vaultwardenAuth => some (5 / 60, 3)
  | .doh => some (100, 200)
  | _ => none

def timeoutSeconds : RouteClass → ℕ
  | .navidromeStream | .navidromeGrpc | .couchdb => 3600
  | .vaultwardenHub => 86400
  | .vaultwarden | .adguardUi => 300
  | .doh => 30
  | _ => 60

def upstreamPoolGroup : RouteClass → ℕ
  | .navidromeStream => 1
  | .navidromeCover => 2
  | .navidromeApi => 3
  | .navidromeGrpc => 10
  | .vaultwardenAuth => 4
  | .vaultwardenHub => 5
  | .vaultwarden => 6
  | .couchdb => 7
  | .doh => 8
  | .adguardUi => 9

end RouteClass

def vaultwardenAuthPath (path : Bytes) : Bool :=
  (["/api/accounts/login", "/api/accounts/prelogin", "/identity/connect/token"].map ascii).any
    fun pre => path == pre || (stripPrefix pre path).any fun rest => rest.head? == some (byte '/')

def classifyRoute (handler : HandlerKind) (path : Bytes) : Option RouteClass :=
  match handler with
  | .static => none
  | .navidromeMain | .navidromeCdn =>
    if streamPrefixes.any fun pre => pre.isPrefixOf path then some .navidromeStream
    else if coverPrefixes.any fun pre => pre.isPrefixOf path then some .navidromeCover
    else some .navidromeApi
  | .vaultwarden =>
    if vaultwardenAuthPath path then some .vaultwardenAuth
    else if (ascii "/notifications/hub").isPrefixOf path then some .vaultwardenHub
    else some .vaultwarden
  | .couchdb => some .couchdb
  | .adguardDns | .adguardKorea => if path == ascii "/dns-query" then some .doh else some .adguardUi

def upstreamNameForRoute (handler : HandlerKind) (configured : Option Bytes) (route : RouteClass) :
    Option Bytes :=
  match handler, route with
  | .navidromeMain, .navidromeStream | .navidromeMain, .navidromeCover
  | .navidromeMain, .navidromeApi | .navidromeMain, .navidromeGrpc
  | .navidromeCdn, .navidromeStream | .navidromeCdn, .navidromeCover
  | .navidromeCdn, .navidromeApi | .navidromeCdn, .navidromeGrpc
  | .vaultwarden, .vaultwardenAuth | .vaultwarden, .vaultwardenHub | .vaultwarden, .vaultwarden
  | .couchdb, .couchdb
  | .adguardDns, .adguardUi | .adguardKorea, .adguardUi => configured
  | .adguardDns, .doh => some (ascii "adguard_dns_doh")
  | .adguardKorea, .doh => some (ascii "adguard_korea_doh")
  | _, _ => none

/-- The two handlers of Navidrome. -/
def isNavidrome : HandlerKind → Bool
  | .navidromeMain | .navidromeCdn => true
  | _ => false

def defaultActiveLimit (handler : HandlerKind) (route : RouteClass) : ℕ :=
  match handler with
  | .navidromeCdn => if route = .navidromeStream then 12 else 48
  | .navidromeMain => if route = .navidromeStream then 10 else 24
  | .vaultwarden => 12
  | .couchdb => 24
  | .adguardDns | .adguardKorea => 96
  | .static => 0

end Pingola
