import CdkPopVerifier.Advertised
import CdkPopVerifier.Contention
import CdkPopVerifier.Demo
import CdkPopVerifier.DoubleUse
import CdkPopVerifier.Envelope
import CdkPopVerifier.Fees
import CdkPopVerifier.Grammar
import CdkPopVerifier.HonestMint
import CdkPopVerifier.HttpTraffic
import CdkPopVerifier.Income
import CdkPopVerifier.Ownership
import CdkPopVerifier.Protocol
import CdkPopVerifier.Requirements
import CdkPopVerifier.Retry
import CdkPopVerifier.Serializable
import CdkPopVerifier.Traffic
