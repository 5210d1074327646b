import Krb5.Transited.TreePath
import Krb5.Transited.AddSound
import Krb5.Asn1.Tiling
import Krb5.Asn1.Primitives
import Krb5.Asn1.Insert
import Krb5.Crypto.Chaining
import Krb5.Auth.Order
import Krb5.Ser.SctxRoundTrip
import Krb5.Gss.TokenScan
import Krb5.Gss.UnsealSafety
import Krb5.Gss.SizeLimit
import Krb5.Rcache.Sharing
import Krb5.Rcache.Crash
import Krb5.Kdb.Lock
import Krb5.Kadm5.Dict
import Krb5.Kadm5.AclRestrict
import Krb5.Kadm5.RefCountRun
import Krb5.Kadm5.PwHistoryRing
import Krb5.Kadm5.SelfServiceRun
import Krb5.Keytab.History
import Krb5.Kdc.Attributes
import Krb5.Kdc.Times
import Krb5.Kdc.Proxy
import Krb5.Kdc.Authentic
import Krb5.Kdc.LookasideRun
import Krb5.Krb524.Convert
import Krb5.Client.CrossRealm
import Krb5.Client.Deltat
import Krb5.Profile.Line
