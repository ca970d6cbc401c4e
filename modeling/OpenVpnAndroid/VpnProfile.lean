/-
  OpenVpnAndroid/VpnProfile.lean
  ==============================
  **Profiles and their connections**, with the fields that the import and the
  generated configuration read or write, and the part of the configuration that
  lists the remotes.

  A field that Java initialises with `null` is an `Option`.
-/
import OpenVpnAndroid.JavaText
import OpenVpnAndroid.ParseLine

namespace OpenVpnAndroid

/-! ### Connections -/

inductive ProxyType where
  | none
  | http
  | socks5
  | orbot
deriving DecidableEq, Repr

structure Connection where
  mServerName : Text := "openvpn.example.com"
  mServerPort : Text := "1194"
  mUseUdp : Bool := true
  mCustomConfiguration : Text := []
  mUseCustomConfig : Bool := false
  mEnabled : Bool := true
  mConnectTimeout : Int := 0
  mProxyType : ProxyType := .none
  mProxyName : Text := "proxy.example.com"
  mProxyPort : Text := "8080"
  mUseProxyAuth : Bool := false
  mProxyAuthUser : Option Text := .none
  mProxyAuthPassword : Option Text := .none
deriving DecidableEq, Repr

namespace Connection

variable (c : Connection)

def usesExtraProxyOptions : Bool :=
  c.mUseCustomConfig && containsText "http-proxy-option " c.mCustomConfiguration

def isOnlyRemote : Bool := c.mCustomConfiguration.isEmpty || !c.mUseCustomConfig

def getConnectionBlock (isOpenVPN3 : Bool) : Text :=
  ("remote " : Text) ++ c.mServerName ++ (" " : Text) ++ c.mServerPort
    ++ (if c.mUseUdp then (" udp\n" : Text) else (" tcp-client\n" : Text))
    ++ (if c.mConnectTimeout ≠ 0 then
          (" connect-timeout  " : Text) ++ decimal c.mConnectTimeout ++ ("\n" : Text)
        else [])
    ++ (if (isOpenVPN3 || c.usesExtraProxyOptions) && c.mProxyType == .http then
          ("http-proxy " : Text) ++ c.mProxyName ++ (" " : Text) ++ c.mProxyPort ++ ("\n" : Text)
            ++ (if c.mUseProxyAuth then
                  ("<http-proxy-user-pass>\n" : Text) ++ orNull c.mProxyAuthUser ++ ("\n" : Text)
                    ++ orNull c.mProxyAuthPassword ++ ("\n</http-proxy-user-pass>\n" : Text)
                else [])
        else [])
    ++ (if c.usesExtraProxyOptions && c.mProxyType == .socks5 then
          ("socks-proxy " : Text) ++ c.mProxyName ++ (" " : Text) ++ c.mProxyPort ++ ("\n" : Text)
        else [])
    ++ (if !c.mCustomConfiguration.isEmpty && c.mUseCustomConfig then
          c.mCustomConfiguration ++ ("\n" : Text)
        else [])

end Connection

/-! ### Profiles -/

inductive AuthenticationType where
  | certificates
  | pkcs12
  | keystore
  | userpass
  | statickeys
  | userpassCertificates
  | userpassPkcs12
  | userpassKeystore
  | externalApp
deriving DecidableEq, Repr

inductive X509AuthType where
  | tlsremote
  | tlsremoteCompatNoremapping
  | tlsremoteDn
  | tlsremoteRdn
  | tlsremoteRdnPrefix
deriving DecidableEq, Repr

inductive AuthRetry where
  | noneForget
  | noneKeep
  | nointeract
  | interact
deriving DecidableEq, Repr

namespace VpnProfile

def INLINE_TAG : Text := "[[INLINE]]"
def DISPLAYNAME_TAG : Text := "[[NAME]]"
def DEFAULT_DNS1 : Text := "9.9.9.9"
def DEFAULT_DNS2 : Text := "2620:fe::fe"

end VpnProfile

structure VpnProfile where
  mAuthenticationType : AuthenticationType := .keystore
  mName : Text
  mClientCertFilename : Option Text := none
  mTLSAuthDirection : Text := []
  mTLSAuthFilename : Option Text := none
  mClientKeyFilename : Option Text := none
  mCaFilename : Option Text := none
  mUseLzo : Bool := false
  mPKCS12Filename : Option Text := none
  mUseTLSAuth : Bool := false
  mDNS1 : Text := VpnProfile.DEFAULT_DNS1
  mDNS2 : Text := VpnProfile.DEFAULT_DNS2
  mIPv4Address : Option Text := none
  mIPv6Address : Option Text := none
  mOverrideDNS : Bool := false
  mSearchDomain : Text := "blinkt.de"
  mUseDefaultRoute : Bool := true
  mUsePull : Bool := true
  mCustomRoutes : Option Text := none
  mCheckRemoteCN : Bool := true
  mExpectTLSCert : Bool := false
  mRemoteCN : Text := []
  mPassword : Text := []
  mUsername : Option Text := some []
  mRoutenopull : Bool := false
  mUseRandomHostname : Bool := false
  mUseFloat : Bool := false
  mUseCustomConfig : Bool := false
  mCustomConfigOptions : Text := []
  mVerb : Text := "1"
  mCipher : Text := []
  mNobind : Bool := true
  mUseDefaultRoutev6 : Bool := true
  mCustomRoutesv6 : Text := []
  mPersistTun : Bool := false
  mConnectRetryMax : Option Text := some "-1"
  mConnectRetry : Text := "2"
  mConnectRetryMaxTime : Text := "300"
  mAuth : Text := []
  mX509AuthType : X509AuthType := .tlsremoteRdn
  mx509UsernameField : Option Text := none
  mAllowLocalLAN : Bool := false
  mExcludedRoutes : Option Text := none
  mMssFix : Int := 0
  mConnections : List Connection := [{}]
  mRemoteRandom : Bool := false
  mCrlFilename : Option Text := none
  mAuthRetry : AuthRetry := .noneForget
  mTunMtu : Int := 0
  mPushPeerInfo : Bool := false
  mServerName : Text := "openvpn.example.com"
  mServerPort : Text := "1194"
  mDataCiphers : Text := []
  mCheckPeerFingerprint : Bool := false
  mPeerFingerPrints : Text := []
  mCompatMode : Int := 0
  mUseLegacyProvider : Bool := false
  mTlSCertProfile : Text := []
deriving DecidableEq, Repr

namespace VpnProfile

variable (p : VpnProfile)

/-! ### The remotes in `getConfigFile` -/

/-- The variable `canUsePlainRemotes` after its loop. -/
def canUsePlainRemotes : Bool :=
  p.mConnections.length == 1 || p.mConnections.all Connection.isOnlyRemote

/-- The option `remote-random`, which a single connection does without. -/
def writesRemoteRandom : Bool := p.mConnections.length != 1 && p.mRemoteRandom

/-- The remotes at the top of the configuration. -/
def plainRemotes (configForOvpn3 : Bool) : Text :=
  match p.mConnections with
  | [conn] => conn.getConnectionBlock configForOvpn3
  | conns =>
      (if p.mRemoteRandom then ("remote-random\n" : Text) else [])
        ++ (if p.canUsePlainRemotes then
              conns.flatMap fun conn =>
                if conn.mEnabled then conn.getConnectionBlock configForOvpn3 else []
            else [])

def connectionBlocksComment : Text :=
  ("# Connection Options are at the end to allow global options " : Text)
    ++ ("(and global custom options) to influence connection blocks\n" : Text)

/-- The connection blocks at its end. -/
def connectionBlocks (configForOvpn3 : Bool) : Text :=
  if !p.canUsePlainRemotes then
    connectionBlocksComment
      ++ p.mConnections.flatMap fun conn =>
        if conn.mEnabled then
          ("<connection>\n" : Text) ++ conn.getConnectionBlock configForOvpn3
            ++ ("</connection>\n" : Text)
        else []
  else []

end VpnProfile

end OpenVpnAndroid
